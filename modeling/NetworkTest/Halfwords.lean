import Mathlib.Algebra.Ring.Nat
import NetworkTest.CBuffer
import NetworkTest.OnesComplement

/-!
Memory read as 16-bit words. A last odd byte counts as a word with a zero byte
behind it. The order in which a host reads the two bytes of a word changes the
sum of the words, but not whether it is a multiple of 65535.
-/

namespace NetworkTest.Halfwords

open CBuffer (Bytes)

inductive Endian where
  | little
  | big
  deriving DecidableEq

namespace Endian

/-- The value of two neighbouring bytes. -/
def word : Endian → UInt8 → UInt8 → Nat
  | .little, first, second => first.toNat + 256 * second.toNat
  | .big, first, second => 256 * first.toNat + second.toNat

/-- The two bytes of a 16-bit value as they lie in memory. -/
def bytes : Endian → BitVec 16 → Bytes
  | .little, value => [⟨value.extractLsb' 0 8⟩, ⟨value.extractLsb' 8 8⟩]
  | .big, value => [⟨value.extractLsb' 8 8⟩, ⟨value.extractLsb' 0 8⟩]

@[simp] theorem length_bytes (order : Endian) (value : BitVec 16) :
    (order.bytes value).length = 2 := by
  cases order <;> rfl

end Endian

def words (order : Endian) : Bytes → List Nat
  | first :: second :: rest => order.word first second :: words order rest
  | [last] => [order.word last 0]
  | [] => []

/-- The exact sum of the words. -/
def wordSum (order : Endian) (data : Bytes) : Nat := (words order data).sum

theorem word_lt (order : Endian) (first second : UInt8) : order.word first second < 65536 := by
  have small := first.toNat_lt
  have other := second.toNat_lt
  cases order <;> simp only [Endian.word] <;> omega

theorem words_lt (order : Endian) (data : Bytes) : ∀ word ∈ words order data, word < 65536 := by
  induction data using words.induct with
  | case1 first second rest ih =>
      intro word member
      rcases List.mem_cons.mp member with rfl | later
      · exact word_lt order first second
      · exact ih word later
  | case2 last =>
      intro word member
      rw [List.mem_singleton.mp member]
      exact word_lt order last 0
  | case3 => simp [words]

theorem wordSum_le (order : Endian) (data : Bytes) :
    wordSum order data ≤ 65535 * ((data.length + 1) / 2) := by
  induction data using words.induct with
  | case1 first second rest ih =>
      have word := word_lt order first second
      simp only [wordSum, words, List.sum_cons, List.length_cons] at ih ⊢
      omega
  | case2 last =>
      have word := word_lt order last 0
      simp only [wordSum, words, List.sum_singleton, List.length_singleton]
      omega
  | case3 => exact Nat.zero_le _

theorem words_append (order : Endian) (front back : Bytes) (even : front.length % 2 = 0) :
    words order (front ++ back) = words order front ++ words order back := by
  induction front using words.induct with
  | case1 first second rest ih =>
      rw [List.length_cons, List.length_cons] at even
      simp only [List.cons_append, words, ih (by omega)]
  | case2 last => simp at even
  | case3 => rfl

theorem wordSum_append (order : Endian) (front back : Bytes) (even : front.length % 2 = 0) :
    wordSum order (front ++ back) = wordSum order front + wordSum order back := by
  rw [wordSum, words_append order front back even, List.sum_append, wordSum, wordSum]

theorem wordSum_zeros (order : Endian) (count : Nat) :
    wordSum order (List.replicate count 0) = 0 := by
  induction count using Nat.twoStepInduction with
  | zero => rfl
  | one => cases order <;> rfl
  | more count ih _ =>
      have zero : order.word 0 0 = 0 := by cases order <;> rfl
      rw [wordSum] at ih ⊢
      rw [List.replicate_succ, List.replicate_succ, words, List.sum_cons, zero, ih]

theorem wordSum_field (order : Endian) (front back : Bytes) (value : BitVec 16)
    (even : front.length % 2 = 0) :
    wordSum order (front ++ order.bytes value ++ back) =
      wordSum order (front ++ 0 :: 0 :: back) + value.toNat := by
  have field : words order (order.bytes value ++ back) = value.toNat :: words order back := by
    cases order <;> simp [Endian.bytes, words, Endian.word] <;> omega
  have zero : words order (0 :: 0 :: back) = 0 :: words order back := by
    cases order <;> rfl
  rw [List.append_assoc, wordSum, wordSum, words_append order _ _ even, field,
    words_append order _ _ even, zero]
  simp only [List.sum_append, List.sum_cons]
  omega

/-- Reading the other way round multiplies the sum by 256, modulo 65535. -/
theorem wordSum_swap (data : Bytes) :
    ∃ count, 256 * wordSum .little data = wordSum .big data + 65535 * count := by
  induction data using words.induct with
  | case1 first second rest ih =>
      obtain ⟨count, same⟩ := ih
      refine ⟨count + second.toNat, ?_⟩
      simp only [wordSum, words, List.sum_cons, Endian.word] at same ⊢
      omega
  | case2 last => exact ⟨0, by simp [wordSum, words, Endian.word]⟩
  | case3 => exact ⟨0, rfl⟩

theorem wordSum_mod_zero_iff (order other : Endian) (data : Bytes) :
    wordSum order data % 65535 = 0 ↔ wordSum other data % 65535 = 0 := by
  obtain ⟨count, same⟩ := wordSum_swap data
  cases order <;> cases other <;> omega

theorem wordSum_pos_iff (order other : Endian) (data : Bytes) :
    0 < wordSum order data ↔ 0 < wordSum other data := by
  have either : 0 < wordSum .little data ↔ 0 < wordSum .big data := by
    induction data using words.induct with
    | case1 first second rest ih =>
        simp only [wordSum, words, List.sum_cons, Endian.word] at ih ⊢
        omega
    | case2 last =>
        simp only [wordSum, words, List.sum_cons, List.sum_nil, Endian.word, UInt8.toNat_zero]
        omega
    | case3 => rfl
  cases order <;> cases other
  · rfl
  · exact either
  · exact either.symm
  · rfl

/-- Words that sum to all ones on one host do so on any. -/
theorem sum_eq_last_iff (receiver order : Endian) (data : Bytes) :
    OnesComplement.sum 65536 (words receiver data) = 0xffff ↔
      0 < wordSum order data ∧ wordSum order data % 65535 = 0 := by
  rw [← wordSum_pos_iff receiver order, ← wordSum_mod_zero_iff receiver order]
  exact OnesComplement.sum_eq_last_iff (by omega) (words_lt receiver data)

end NetworkTest.Halfwords
