import Mathlib.Data.Nat.Bitwise
import NetworkTest.Halfwords
import NetworkTest.OnesComplement

/-!
`cksum_in` of fri/raw/my_ping2.c, which fri/port_stat/port_scan_sys.c has too.
The accumulator is an `unsigned long`; its upper part is added back to the
lower one when bit 31 is set, and again at the end until nothing is above 16
bits. What is returned is the complement, except that of 0xffff, which is
returned as it is.
-/

namespace NetworkTest.Checksum

open CBuffer (Bytes)
open Halfwords (Endian words wordSum)

inductive LongWidth where
  | bits32
  | bits64
  deriving DecidableEq

def LongWidth.size : LongWidth → Nat
  | .bits32 => 32
  | .bits64 => 64

abbrev Long (width : LongWidth) := BitVec width.size

inductive Assign (width : LongWidth) where
  | add (before : Long width) (word : Nat) (after : Long width)
  | fold (before after : Long width)
  deriving DecidableEq

section

variable {width : LongWidth}

def fold (sum : Long width) : Long width := (sum &&& 0xffff#_) + (sum >>> 16)

/-- The loop over the words, and the odd byte behind it. -/
def addWords (order : Endian) (sum : Long width) : Bytes → List (Assign width) × Long width
  | first :: second :: rest =>
      let word := order.word first second
      let added := sum + BitVec.ofNat _ word
      if added &&& 0x80000000#_ ≠ 0#_ then
        let folded := fold added
        let later := addWords order folded rest
        (.add sum word added :: .fold added folded :: later.1, later.2)
      else
        let later := addWords order added rest
        (.add sum word added :: later.1, later.2)
  | [last] =>
      let answer := order.word last 0
      let added := sum + BitVec.ofNat _ answer
      ([.add sum answer added], added)
  | [] => ([], sum)

theorem toNat_fold (sum : Long width) :
    (fold sum).toNat = OnesComplement.fold 65536 sum.toNat := by
  have lower : (sum &&& 0xffff#_).toNat = sum.toNat % 65536 := by
    have mask : (0xffff#_ : Long width).toNat = 2 ^ 16 - 1 := by cases width <;> rfl
    rw [BitVec.toNat_and, mask, Nat.and_two_pow_sub_one_eq_mod]
  have upper : (sum >>> 16).toNat = sum.toNat / 65536 := by
    rw [BitVec.toNat_ushiftRight, Nat.shiftRight_eq_div_pow]
  have bound := sum.isLt
  rw [fold, BitVec.toNat_add, lower, upper, OnesComplement.fold]
  apply Nat.mod_eq_of_lt
  cases width <;> simp only [LongWidth.size] at bound ⊢ <;> omega

theorem shift_eq_zero_iff (sum : Long width) : sum >>> 16 = 0#_ ↔ sum.toNat < 65536 := by
  rw [← BitVec.toNat_inj, BitVec.toNat_ushiftRight, Nat.shiftRight_eq_div_pow]
  change sum.toNat / 65536 = 0 % 2 ^ width.size ↔ _
  rw [Nat.zero_mod]
  omega

theorem fold_lt {sum : Long width} (above : sum >>> 16 ≠ 0#_) : (fold sum).toNat < sum.toNat := by
  rw [toNat_fold]
  apply OnesComplement.fold_lt (by omega)
  rw [ne_eq, shift_eq_zero_iff] at above
  omega

/-- `while(sum >> 16)`. -/
def foldAll (sum : Long width) : List (Assign width) × Long width :=
  if _ : sum >>> 16 ≠ 0#_ then
    let later := foldAll (fold sum)
    (.fold sum (fold sum) :: later.1, later.2)
  else ([], sum)
termination_by sum.toNat
decreasing_by exact fold_lt (by assumption)

end

def accumulate (width : LongWidth) (order : Endian) (data : Bytes) :
    List (Assign width) × Long width :=
  let added := addWords order 0#_ data
  let folded := foldAll added.2
  (added.1 ++ folded.1, folded.2)

def cksum_in (width : LongWidth) (order : Endian) (data : Bytes) : BitVec 16 :=
  let sum := (accumulate width order data).2
  (if sum = 0xffff#_ then sum else ~~~sum).setWidth 16

/-- An addition is exact and stays below 2^32; a fold makes the accumulator
smaller and keeps its residue. -/
def Assign.Exact {width : LongWidth} : Assign width → Prop
  | .add before word after =>
      before.toNat + word < 4294967296 ∧ after.toNat = before.toNat + word
  | .fold before after =>
      after.toNat < before.toNat ∧ after.toNat % 65535 = before.toNat % 65535

section

variable {width : LongWidth} {sum : Long width}

theorem toNat_add (sum : Long width) (word : Nat) (room : sum.toNat + word < 4294967296) :
    (sum + BitVec.ofNat _ word).toNat = sum.toNat + word := by
  have wide : 4294967296 ≤ 2 ^ width.size := by cases width <;> decide
  rw [BitVec.toNat_add, BitVec.toNat_ofNat, Nat.mod_eq_of_lt (by omega : word < 2 ^ width.size),
    Nat.mod_eq_of_lt (by omega)]

theorem and_eq_zero_iff (small : sum.toNat < 4294967296) :
    sum &&& 0x80000000#_ = 0#_ ↔ sum.toNat < 2147483648 := by
  have mask : (0x80000000#_ : Long width).toNat = 2 ^ 31 := by cases width <;> rfl
  have zero : (0#_ : Long width).toNat = 0 := by cases width <;> rfl
  rw [← BitVec.toNat_inj, BitVec.toNat_and, mask, zero, Nat.and_two_pow,
    Nat.testBit_eq_decide_div_mod_eq]
  by_cases bit : sum.toNat / 2 ^ 31 % 2 = 1
  · simp only [bit, decide_true, Bool.toNat_true]
    omega
  · simp only [bit, decide_false, Bool.toNat_false]
    omega

theorem exact_fold (sum : Long width) (above : 65536 ≤ sum.toNat) :
    (Assign.fold sum (fold sum)).Exact := by
  rw [Assign.Exact, toNat_fold]
  exact ⟨OnesComplement.fold_lt (by omega) above, OnesComplement.fold_mod sum.toNat⟩

theorem addWords_exact (order : Endian) (data : Bytes) (sum : Long width)
    (small : sum.toNat < 2147483648) :
    (∀ step ∈ (addWords order sum data).1, step.Exact) ∧
      (addWords order sum data).2.toNat % 65535 = (sum.toNat + wordSum order data) % 65535 := by
  induction data using Halfwords.words.induct generalizing sum with
  | case1 first second rest ih =>
      have word := Halfwords.word_lt order first second
      have value := toNat_add sum (order.word first second) (by omega)
      have exact : (Assign.add sum (order.word first second)
          (sum + BitVec.ofNat _ (order.word first second))).Exact := ⟨by omega, value⟩
      rw [addWords]
      split
      case isTrue set =>
          rw [ne_eq, and_eq_zero_iff (by omega)] at set
          have shorter := toNat_fold (sum + BitVec.ofNat _ (order.word first second))
          rw [OnesComplement.fold] at shorter
          have folds := exact_fold (sum + BitVec.ofNat _ (order.word first second)) (by omega)
          obtain ⟨later, residue⟩ := ih (fold (sum + BitVec.ofNat _ (order.word first second)))
            (by omega)
          refine ⟨?_, ?_⟩
          · simp only [List.forall_mem_cons]
            exact ⟨exact, folds, later⟩
          · rw [residue, Nat.add_mod, folds.2, ← Nat.add_mod, value, wordSum, wordSum, words,
              List.sum_cons, Nat.add_assoc]
      case isFalse clear =>
          rw [ne_eq, not_not, and_eq_zero_iff (by omega)] at clear
          obtain ⟨later, residue⟩ := ih _ clear
          refine ⟨?_, ?_⟩
          · simp only [List.forall_mem_cons]
            exact ⟨exact, later⟩
          · rw [residue, value, wordSum, wordSum, words, List.sum_cons, Nat.add_assoc]
  | case2 last =>
      have word := Halfwords.word_lt order last 0
      have value := toNat_add sum (order.word last 0) (by omega)
      refine ⟨?_, ?_⟩
      · simp only [addWords, List.mem_singleton, forall_eq]
        exact ⟨by omega, value⟩
      · simp only [addWords, value, wordSum, words, List.sum_singleton]
  | case3 => exact ⟨by simp [addWords], rfl⟩

theorem foldAll_exact (sum : Long width) :
    (∀ step ∈ (foldAll sum).1, step.Exact) ∧ (foldAll sum).2.toNat < 65536 ∧
      (foldAll sum).2.toNat % 65535 = sum.toNat % 65535 := by
  induction sum using foldAll.induct with
  | case1 sum above ih =>
      rw [foldAll, dif_pos above]
      rw [ne_eq, shift_eq_zero_iff] at above
      have folds := exact_fold sum (by omega)
      refine ⟨?_, ih.2.1, ih.2.2.trans folds.2⟩
      simp only [List.forall_mem_cons]
      exact ⟨folds, ih.1⟩
  | case2 sum below =>
      rw [foldAll, dif_neg below]
      rw [ne_eq, not_not, shift_eq_zero_iff] at below
      exact ⟨by simp, below, rfl⟩

end

theorem accumulate_exact (width : LongWidth) (order : Endian) (data : Bytes) :
    (∀ step ∈ (accumulate width order data).1, step.Exact) ∧
      (accumulate width order data).2.toNat < 65536 ∧
      (accumulate width order data).2.toNat % 65535 = wordSum order data % 65535 := by
  have zero : (0#_ : Long width).toNat = 0 := by cases width <;> rfl
  obtain ⟨adds, residue⟩ := addWords_exact order data (0#_ : Long width) (by omega)
  obtain ⟨folds, small, kept⟩ := foldAll_exact (addWords order (0#_ : Long width) data).2
  rw [zero, Nat.zero_add] at residue
  refine ⟨?_, small, kept.trans residue⟩
  intro step member
  rcases List.mem_append.mp member with add | fold
  · exact adds step add
  · exact folds step fold

theorem toNat_cksum_in (width : LongWidth) (order : Endian) (data : Bytes) :
    (cksum_in width order data).toNat =
      if (accumulate width order data).2.toNat = 65535 then 65535
      else 65535 - (accumulate width order data).2.toNat := by
  have small := (accumulate_exact width order data).2.1
  have mask : (0xffff#_ : Long width).toNat = 65535 := by cases width <;> rfl
  rw [cksum_in]
  simp only [← BitVec.toNat_inj, mask]
  split
  case isTrue last => rw [BitVec.toNat_setWidth, last]
  case isFalse =>
      rw [BitVec.toNat_setWidth, BitVec.toNat_not]
      cases width <;> simp only [LongWidth.size] at small ⊢ <;> omega

/-- The result is known from the exact sum of the words. -/
theorem toNat_cksum_in_wordSum (width : LongWidth) (order : Endian) (data : Bytes) :
    (cksum_in width order data).toNat = 65535 - wordSum order data % 65535 := by
  obtain ⟨_, small, residue⟩ := accumulate_exact width order data
  rw [toNat_cksum_in]
  split <;> omega

theorem cancelled (width : LongWidth) (order : Endian) (data : Bytes) :
    1 ≤ (cksum_in width order data).toNat ∧
      (wordSum order data + (cksum_in width order data).toNat) % 65535 = 0 := by
  rw [toNat_cksum_in_wordSum]
  omega

/-- The result in the field that was zero makes the words sum to all ones. -/
theorem filled_sums (width : LongWidth) (order receiver : Endian) (front back : Bytes)
    (even : front.length % 2 = 0) :
    OnesComplement.sum 65536 (words receiver
      (front ++ order.bytes (cksum_in width order (front ++ 0 :: 0 :: back)) ++ back)) =
        0xffff := by
  have cancels := cancelled width order (front ++ 0 :: 0 :: back)
  rw [Halfwords.sum_eq_last_iff receiver order, Halfwords.wordSum_field order front back _ even]
  exact ⟨by omega, cancels.2⟩

/-- The accumulator stays below 2^32 and keeps its residue, the result is not
0 and cancels the sum of the words, and a message that carries it in the field
that was zero sums to 0xffff on any host. -/
theorem cksum_in_cancels (width : LongWidth) (order : Endian) (data : Bytes) :
    (∀ step ∈ (accumulate width order data).1, step.Exact) ∧
      1 ≤ (cksum_in width order data).toNat ∧ (cksum_in width order data).toNat ≤ 65535 ∧
      (wordSum order data + (cksum_in width order data).toNat) % 65535 = 0 ∧
      ∀ (receiver : Endian) (front back : Bytes), front.length % 2 = 0 →
        data = front ++ 0 :: 0 :: back →
          OnesComplement.sum 65536 (words receiver
            (front ++ order.bytes (cksum_in width order data) ++ back)) = 0xffff := by
  obtain ⟨positive, cancels⟩ := cancelled width order data
  refine ⟨(accumulate_exact width order data).1, positive,
    Nat.le_of_lt_succ (cksum_in width order data).isLt, cancels, ?_⟩
  intro receiver front back even split
  subst split
  exact filled_sums width order receiver front back even

end NetworkTest.Checksum
