import NetworkTest.CBuffer

/-!
The read loop that several of the programs share: one byte at a time is stored
at `temp`, tested, and kept, until a line feed or a zero byte, and the text is
terminated at `length`.
-/

namespace NetworkTest.LineReader

open CBuffer (Bytes Memory cstring)

/-- `place` is `temp - buffer`. -/
structure Reader (size : Nat) where
  buffer : Memory size
  place : Nat
  length : Nat
  deriving DecidableEq

variable {size : Nat}

namespace Reader

/-- What a read of one byte leaves; outside the array nothing is stored. -/
def store (reader : Reader size) (byte : UInt8) : Reader size :=
  { reader with buffer := reader.buffer.set reader.place byte }

/-- One pass of the loop, and whether it was the last. -/
def pass (reader : Reader size) (byte : UInt8) : Reader size × Bool :=
  if byte = 13 then (reader.store byte, false)
  else if byte = 10 ∨ byte = 0 ∨ reader.length = size then (reader.store byte, true)
  else
    ({ reader.store byte with place := reader.place + 1, length := reader.length + 1 }, false)

def finish (reader : Reader size) : Reader size :=
  { reader with buffer := reader.buffer.set reader.length 0 }

def text (reader : Reader size) : Bytes := cstring reader.buffer.val

end Reader

def Kept (byte : UInt8) : Prop := byte ≠ 13 ∧ byte ≠ 10 ∧ byte ≠ 0

/-- The loop has stored this text. -/
structure Holds (reader : Reader size) (text : Bytes) : Prop where
  place : reader.place = text.length
  stored : reader.buffer.val.take text.length = text

theorem holds_nil (reader : Reader size) (first : reader.place = 0) : Holds reader [] :=
  ⟨first, rfl⟩

theorem take_set_place (bytes : Bytes) (byte : UInt8) {place : Nat}
    (inside : place < bytes.length) :
    (bytes.set place byte).take (place + 1) = bytes.take place ++ [byte] := by
  rw [List.take_add_one, List.take_set_of_le (Nat.le_refl _), List.getElem?_set_self inside]
  rfl

theorem pass_kept {reader : Reader size} {text : Bytes} (holds : Holds reader text)
    {byte : UInt8} (kept : Kept byte) (room : reader.length ≠ size) (inside : reader.place < size) :
    (reader.pass byte).2 = false ∧ (reader.pass byte).1.length = reader.length + 1 ∧
      Holds (reader.pass byte).1 (text ++ [byte]) := by
  obtain ⟨place, stored⟩ := holds
  obtain ⟨noReturn, noFeed, noZero⟩ := kept
  simp only [Reader.pass, noReturn, noFeed, noZero, room, if_false, or_self]
  refine ⟨trivial, trivial, by simp [place], ?_⟩
  have before : text.length < reader.buffer.val.length := by
    rw [reader.buffer.property]
    omega
  rw [List.length_append, List.length_singleton]
  simp only [Reader.store, Memory.set, place]
  rw [take_set_place _ _ before, stored]

theorem pass_zero {reader : Reader size} {text : Bytes} (holds : Holds reader text)
    (inside : reader.place < size) :
    (reader.pass 0).2 = true ∧ (reader.pass 0).1.length = reader.length ∧
      (reader.pass 0).1.buffer.val.take (text.length + 1) = text ++ [0] := by
  obtain ⟨place, stored⟩ := holds
  have before : text.length < reader.buffer.val.length := by
    rw [reader.buffer.property]
    omega
  refine ⟨rfl, rfl, ?_⟩
  change (reader.buffer.val.set reader.place 0).take (text.length + 1) = text ++ [0]
  rw [place, take_set_place _ _ before, stored]

/-- The loop gives up at a full count, whatever it has stored. -/
theorem pass_full {reader : Reader size} {byte : UInt8} (kept : Kept byte)
    (full : reader.length = size) :
    (reader.pass byte).2 = true ∧ (reader.pass byte).1.length = size := by
  simp [Reader.pass, Reader.store, kept.1, full]

/-- Once the zero is behind the text, another one further on does no harm. -/
theorem text_finish {reader : Reader size} {text : Bytes} (nonzero : ∀ byte ∈ text, byte ≠ 0)
    (ended : reader.buffer.val.take (text.length + 1) = text ++ [0])
    (behind : text.length ≤ reader.length) : reader.finish.text = text := by
  have split : reader.finish.buffer.val.take (text.length + 1) = text ++ [0] := by
    simp only [Reader.finish, Memory.set]
    rw [List.take_set, ended]
    rcases Nat.lt_or_eq_of_le behind with further | same
    · rw [List.set_eq_of_length_le (by rw [List.length_append]; exact further)]
    · rw [← same, List.set_append_right _ _ (Nat.le_refl _), Nat.sub_self, List.set_cons_zero]
  rw [Reader.text, ← List.take_append_drop (text.length + 1) reader.finish.buffer.val, split,
    List.append_assoc, List.singleton_append, CBuffer.cstring_append_zero,
    CBuffer.cstring_of_nonzero nonzero]

end NetworkTest.LineReader
