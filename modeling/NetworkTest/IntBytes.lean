import Mathlib.Logic.Equiv.Defs
import NetworkTest.CBuffer

/-!
The bytes of a 32-bit `int` in memory. A byte order is a one-to-one layout of
the values in four bytes, zero in zeros; programs that exchange integers as
they lie in memory agree on one.
-/

namespace NetworkTest.IntBytes

open CBuffer (Bytes Memory)

abbrev Word := BitVec 32

def INT_MAX : Nat := 2147483647

structure ByteOrder where
  layout : Word ≃ Memory 4
  zero : layout 0 = Memory.zeros 4

def ByteOrder.encode (order : ByteOrder) (value : Word) : Bytes := (order.layout value).val

def ByteOrder.decode (order : ByteOrder) (memory : Memory 4) : Word := order.layout.symm memory

@[simp] theorem length_encode (order : ByteOrder) (value : Word) :
    (order.encode value).length = 4 := (order.layout value).property

theorem decode_store (order : ByteOrder) (memory : Memory 4) (value : Word)
    (fits : (order.encode value).length ≤ 4) :
    order.decode (memory.store (order.encode value) fits) = value := by
  rw [ByteOrder.decode, Equiv.symm_apply_eq]
  exact CBuffer.store_whole memory (order.layout value)

theorem decode_eq_zero_iff (order : ByteOrder) (memory : Memory 4) :
    order.decode memory = 0 ↔ memory = Memory.zeros 4 := by
  rw [ByteOrder.decode, Equiv.symm_apply_eq, order.zero]

/-! The two usual byte orders. -/

def word (first second third fourth : UInt8) : Word :=
  first.toBitVec ++ second.toBitVec ++ third.toBitVec ++ fourth.toBitVec

def bytesOf (value : Word) : Bytes :=
  [⟨value.extractLsb' 24 8⟩, ⟨value.extractLsb' 16 8⟩, ⟨value.extractLsb' 8 8⟩,
    ⟨value.extractLsb' 0 8⟩]

def wordOf : Bytes → Word
  | [first, second, third, fourth] => word first second third fourth
  | _ => 0

theorem wordOf_bytesOf (value : Word) : wordOf (bytesOf value) = value := by
  apply BitVec.eq_of_getLsbD_eq
  intro i small
  simp only [wordOf, bytesOf, word, BitVec.getLsbD_append, BitVec.getLsbD_extractLsb']
  grind

theorem bytesOf_wordOf {bytes : Bytes} (four : bytes.length = 4) :
    bytesOf (wordOf bytes) = bytes := by
  match bytes, four with
  | [first, second, third, fourth], _ =>
      simp only [wordOf, bytesOf, word, List.cons.injEq, ← UInt8.toBitVec_inj, and_true]
      refine ⟨?_, ?_, ?_, ?_⟩
      all_goals
        apply BitVec.eq_of_getLsbD_eq
        intro i small
        simp only [BitVec.getLsbD_extractLsb', BitVec.getLsbD_append]
        grind

def bigEndian : ByteOrder where
  layout :=
    { toFun := fun value => ⟨bytesOf value, rfl⟩
      invFun := fun memory => wordOf memory.val
      left_inv := wordOf_bytesOf
      right_inv := fun memory => Subtype.ext (bytesOf_wordOf memory.property) }
  zero := rfl

def littleEndian : ByteOrder where
  layout :=
    { toFun := fun value => ⟨(bytesOf value).reverse, rfl⟩
      invFun := fun memory => wordOf memory.val.reverse
      left_inv := fun value => by
        change wordOf (bytesOf value).reverse.reverse = value
        rw [List.reverse_reverse, wordOf_bytesOf]
      right_inv := fun memory => Subtype.ext (by
        change (bytesOf (wordOf memory.val.reverse)).reverse = memory.val
        rw [bytesOf_wordOf (by rw [List.length_reverse, memory.property]), List.reverse_reverse]) }
  zero := rfl

end NetworkTest.IntBytes
