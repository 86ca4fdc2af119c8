import Mathlib.Data.List.TakeWhile

/-!
Character arrays of C: a read replaces the front of the array and leaves the
rest as it was, a string ends at the first zero byte, and `strncpy` pads a
short source with zeros. Arrays are byte lists of fixed length.
-/

namespace NetworkTest.CBuffer

abbrev Bytes := List UInt8

/-- The buffer size of the C library's streams. -/
def BUFSIZ : Nat := 8192

/-- The array after `data` has been stored from its start. -/
def overwrite (buffer data : Bytes) : Bytes := data ++ buffer.drop data.length

/-- The string that starts at the array's first byte. -/
def cstring (buffer : Bytes) : Bytes := buffer.takeWhile (· ≠ 0)

def strncpy (source : Bytes) (size : Nat) : Bytes :=
  (source ++ List.replicate size 0).take size

abbrev Memory (size : Nat) := { bytes : Bytes // bytes.length = size }

def Memory.zeros (size : Nat) : Memory size := ⟨List.replicate size 0, List.length_replicate ..⟩

def Memory.store {size : Nat} (memory : Memory size) (data : Bytes)
    (fits : data.length ≤ size) : Memory size :=
  ⟨overwrite memory.val data, by
    have length := memory.property
    simp only [overwrite, List.length_append, List.length_drop]
    omega⟩

def Memory.set {size : Nat} (memory : Memory size) (index : Nat) (byte : UInt8) : Memory size :=
  ⟨memory.val.set index byte, by rw [List.length_set, memory.property]⟩

theorem overwrite_take (buffer data : Bytes) :
    (overwrite buffer data).take data.length = data := by
  simp [overwrite]

theorem overwrite_set_take (buffer data : Bytes) (byte : UInt8) :
    ((overwrite buffer data).set data.length byte).take data.length = data := by
  rw [List.take_set_of_le (Nat.le_refl _), overwrite_take]

theorem overwrite_getD {buffer data : Bytes} {i : Nat} (inside : i < data.length) :
    (overwrite buffer data).getD i 0 = data.getD i 0 := by
  rw [overwrite, List.getD_eq_getElem?_getD, List.getD_eq_getElem?_getD,
    List.getElem?_append_left inside]

theorem cstring_append_zero (data rest : Bytes) :
    cstring (data ++ 0 :: rest) = cstring data := by
  induction data with
  | nil => simp [cstring]
  | cons byte data ih =>
      by_cases zero : byte = 0
      · simp [cstring, zero]
      · simpa [cstring, zero] using ih

/-- A string that ends in the array is the same whatever lies behind the array. -/
theorem cstring_append_of_zero {data : Bytes} (ends : 0 ∈ data) (rest : Bytes) :
    cstring (data ++ rest) = cstring data := by
  obtain ⟨front, back, rfl⟩ := List.append_of_mem ends
  rw [List.append_assoc, List.cons_append, cstring_append_zero, cstring_append_zero]

theorem cstring_prefix (data rest : Bytes) : cstring data <+: cstring (data ++ rest) := by
  induction data with
  | nil => exact List.nil_prefix
  | cons byte data ih =>
      by_cases zero : byte = 0
      · simp [cstring, zero]
      · simpa [cstring, zero] using ih

theorem overwrite_terminated {buffer data : Bytes} (fits : data.length < buffer.length) :
    (overwrite buffer data).set data.length 0 =
      data ++ 0 :: buffer.drop (data.length + 1) := by
  have split : buffer.drop data.length = buffer[data.length] :: buffer.drop (data.length + 1) :=
    List.drop_eq_getElem_cons fits
  rw [overwrite, split, List.set_append_right _ _ (Nat.le_refl _), Nat.sub_self,
    List.set_cons_zero]

/-- Once the stored bytes are terminated, nothing left in the array from
before is part of the string. -/
theorem cstring_terminated {buffer data : Bytes} (fits : data.length < buffer.length) :
    cstring ((overwrite buffer data).set data.length 0) = cstring data := by
  rw [overwrite_terminated fits, cstring_append_zero]

theorem cstring_store_set {size : Nat} (memory : Memory size) {data : Bytes}
    (fits : data.length < size) :
    cstring ((memory.store data (Nat.le_of_lt fits)).set data.length 0).val = cstring data :=
  cstring_terminated (by rw [memory.property]; exact fits)

theorem zero_mem_store_set {size : Nat} (memory : Memory size) {data : Bytes}
    (fits : data.length < size) :
    0 ∈ ((memory.store data (Nat.le_of_lt fits)).set data.length 0).val := by
  have terminated := @overwrite_terminated memory.val data (by rwa [memory.property])
  change 0 ∈ (overwrite memory.val data).set data.length 0
  rw [terminated]
  exact List.mem_append_right _ List.mem_cons_self

theorem store_whole {size : Nat} (memory : Memory size) (data : Memory size) :
    memory.store data.val (Nat.le_of_eq data.property) = data := by
  apply Subtype.ext
  simp [Memory.store, overwrite, memory.property, data.property]

/-- Data that fills the array: the zero falls behind it. -/
theorem store_set_full {size : Nat} (memory : Memory size) {data : Bytes}
    (full : data.length = size) :
    ((memory.store data (Nat.le_of_eq full)).set data.length 0).val = data := by
  have nothing : memory.val.drop data.length = [] := by
    rw [List.drop_eq_nil_iff, memory.property, full]
  simp only [Memory.store, Memory.set, overwrite, nothing, List.append_nil]
  rw [List.set_eq_of_length_le (Nat.le_refl _)]

theorem cstring_received {size : Nat} (memory : Memory size) {data : Bytes}
    (fits : data.length ≤ size) :
    cstring ((memory.store data fits).set data.length 0).val = cstring data := by
  rcases Nat.lt_or_eq_of_le fits with short | full
  · exact cstring_store_set memory short
  · rw [store_set_full memory full]

theorem cstring_of_nonzero {data : Bytes} (nonzero : ∀ byte ∈ data, byte ≠ 0) :
    cstring data = data := by
  simpa [cstring, List.takeWhile_eq_self_iff] using nonzero

theorem cstring_nonzero (data : Bytes) : ∀ byte ∈ cstring data, byte ≠ 0 := by
  intro byte member
  simpa using List.mem_takeWhile_imp member

theorem cstring_cstring (data : Bytes) : cstring (cstring data) = cstring data :=
  cstring_of_nonzero (cstring_nonzero data)

theorem cstring_length_le (data : Bytes) : (cstring data).length ≤ data.length :=
  (List.takeWhile_prefix _).length_le

theorem cstring_length_lt_iff (data : Bytes) : (cstring data).length < data.length ↔ 0 ∈ data := by
  constructor
  · intro shorter
    by_contra absent
    have whole := cstring_of_nonzero (fun byte member => ne_of_mem_of_not_mem member absent)
    rw [whole] at shorter
    exact Nat.lt_irrefl _ shorter
  · intro ends
    obtain ⟨front, back, rfl⟩ := List.append_of_mem ends
    rw [cstring_append_zero, List.length_append, List.length_cons]
    have := cstring_length_le front
    omega

theorem strncpy_length (source : Bytes) (size : Nat) : (strncpy source size).length = size := by
  simp [strncpy]

/-- A padded name ends in the array just when it is shorter than the array. -/
theorem zero_mem_strncpy_iff {source : Bytes} (nonzero : ∀ byte ∈ source, byte ≠ 0)
    (size : Nat) : 0 ∈ strncpy source size ↔ source.length < size := by
  rw [strncpy, List.take_append, List.take_replicate, List.mem_append, List.mem_replicate]
  constructor
  · rintro (inside | ⟨more, _⟩)
    · exact absurd rfl (nonzero 0 (List.mem_of_mem_take inside))
    · omega
  · intro short
    exact .inr ⟨by omega, rfl⟩

/-- The first `count` bytes of a padded name hold the part of the name that
fits into them. -/
theorem cstring_strncpy_take {source : Bytes} {size count : Nat}
    (nonzero : ∀ byte ∈ source, byte ≠ 0) (inside : count ≤ size) :
    cstring ((strncpy source size).take count) = source.take count := by
  have cut : (strncpy source size).take count =
      source.take count ++ List.replicate (count - source.length) 0 := by
    rw [strncpy, List.take_take, Nat.min_eq_left inside, List.take_append, List.take_replicate]
    congr 2
    omega
  have taken : cstring (source.take count) = source.take count :=
    cstring_of_nonzero fun byte member => nonzero byte (List.mem_of_mem_take member)
  rw [cut]
  cases count - source.length with
  | zero => simpa using taken
  | succ padding => rw [List.replicate_succ, cstring_append_zero, taken]

end NetworkTest.CBuffer
