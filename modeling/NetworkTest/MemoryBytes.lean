import Mathlib.Data.Nat.Digits.Defs
import NetworkTest.Halfwords

/-!
Numbers as they lie in memory: a fixed count of bytes, the least significant
one first on a little-endian host and last on a big-endian one. Network order
is that of a big-endian host.
-/

namespace NetworkTest.MemoryBytes

open CBuffer (Bytes)
open Halfwords (Endian words wordSum)

def little : Nat → Nat → Bytes
  | 0, _ => []
  | size + 1, value => UInt8.ofNat value :: little size (value / 256)

def encode : Endian → Nat → Nat → Bytes
  | .little, size, value => little size value
  | .big, size, value => (little size value).reverse

def decode : Endian → Bytes → Nat
  | .little, bytes => Nat.ofDigits 256 (bytes.map UInt8.toNat)
  | .big, bytes => Nat.ofDigits 256 (bytes.reverse.map UInt8.toNat)

theorem length_little (size value : Nat) : (little size value).length = size := by
  induction size generalizing value with
  | zero => rfl
  | succ size ih => rw [little, List.length_cons, ih]

@[simp] theorem length_encode (order : Endian) (size value : Nat) :
    (encode order size value).length = size := by
  cases order with
  | little => exact length_little size value
  | big => rw [encode, List.length_reverse, length_little]

theorem ofDigits_little (size value : Nat) :
    Nat.ofDigits 256 ((little size value).map UInt8.toNat) = value % 256 ^ size := by
  induction size generalizing value with
  | zero => simp [little, Nat.mod_one]
  | succ size ih =>
      rw [little, List.map_cons, Nat.ofDigits_cons, ih, Nat.pow_succ',
        @Nat.mod_mul 256 (256 ^ size) value, UInt8.toNat_ofNat']

theorem decode_encode (order : Endian) (size value : Nat) :
    decode order (encode order size value) = value % 256 ^ size := by
  cases order with
  | little => exact ofDigits_little size value
  | big => rw [encode, decode, List.reverse_reverse, ofDigits_little]

theorem digit_lt {bytes : Bytes} : ∀ digit ∈ bytes.map UInt8.toNat, digit < 256 := by
  intro digit member
  obtain ⟨byte, _, rfl⟩ := List.mem_map.mp member
  exact byte.toNat_lt

theorem ofDigits_lt (bytes : Bytes) :
    Nat.ofDigits 256 (bytes.map UInt8.toNat) < 256 ^ bytes.length := by
  have bound := Nat.ofDigits_lt_base_pow_length (by decide : 1 < 256) (@digit_lt bytes)
  rwa [List.length_map] at bound

theorem decode_lt (order : Endian) (bytes : Bytes) : decode order bytes < 256 ^ bytes.length := by
  cases order with
  | little => exact ofDigits_lt bytes
  | big =>
      have bound := ofDigits_lt bytes.reverse
      rwa [List.length_reverse] at bound

theorem little_ofDigits (bytes : Bytes) :
    little bytes.length (Nat.ofDigits 256 (bytes.map UInt8.toNat)) = bytes := by
  induction bytes with
  | nil => rfl
  | cons byte bytes ih =>
      have small := byte.toNat_lt
      rw [List.map_cons, Nat.ofDigits_cons, List.length_cons, little]
      congr 1
      · apply UInt8.toNat_inj.mp
        simp only [UInt8.toNat_ofNat']
        omega
      · rw [show ((byte.toNat : Nat) + 256 * Nat.ofDigits 256 (bytes.map UInt8.toNat)) / 256 =
          Nat.ofDigits 256 (bytes.map UInt8.toNat) by omega, ih]

theorem encode_decode (order : Endian) (bytes : Bytes) :
    encode order bytes.length (decode order bytes) = bytes := by
  cases order with
  | little => exact little_ofDigits bytes
  | big =>
      have same := little_ofDigits bytes.reverse
      rw [List.length_reverse] at same
      rw [encode, decode, same, List.reverse_reverse]

theorem little_zero (size : Nat) : little size 0 = List.replicate size 0 := by
  induction size with
  | zero => rfl
  | succ size ih => rw [little, Nat.zero_div, ih, List.replicate_succ]; rfl

theorem little_add {value size : Nat} (upper : Nat) (fits : value < 256 ^ size) :
    little (size + upper) value = little size value ++ List.replicate upper 0 := by
  induction size generalizing value with
  | zero =>
      rw [Nat.pow_zero, Nat.lt_one_iff] at fits
      rw [fits, Nat.zero_add, little_zero]
      rfl
  | succ size ih =>
      rw [Nat.add_right_comm, little, little, ih (by rw [Nat.pow_succ] at fits; omega)]
      rfl

/-- `htons`, and `ntohs`: the two bytes change places where the host is
little-endian. -/
def htons : Endian → BitVec 16 → BitVec 16
  | .little, value => value.extractLsb' 0 8 ++ value.extractLsb' 8 8
  | .big, value => value

theorem bytes_htons (order : Endian) (value : BitVec 16) :
    order.bytes (htons order value) = Endian.big.bytes value := by
  cases order with
  | little =>
      rw [Endian.bytes, htons, BitVec.extractLsb'_append_eq_right,
        BitVec.extractLsb'_append_eq_left]
      rfl
  | big => rfl

theorem toNat_htons_little (value : BitVec 16) :
    (htons .little value).toNat = 256 * (value.toNat % 256) + value.toNat / 256 := by
  have small := value.isLt
  have upper : value.toNat / 256 < 2 ^ 8 := by omega
  rw [htons, BitVec.toNat_append, BitVec.extractLsb'_toNat, BitVec.extractLsb'_toNat,
    Nat.shiftRight_zero, Nat.shiftRight_eq_div_pow, Nat.mod_eq_of_lt upper,
    ← Nat.shiftLeft_add_eq_or_of_lt upper, Nat.shiftLeft_eq]
  omega

theorem ntohs_word (order : Endian) (first second : UInt8) :
    (htons order (BitVec.ofNat 16 (order.word first second))).toNat =
      Endian.big.word first second := by
  have upper := first.toNat_lt
  have lower := second.toNat_lt
  cases order with
  | little =>
      rw [toNat_htons_little, BitVec.toNat_ofNat]
      simp only [Endian.word]
      omega
  | big =>
      rw [htons, BitVec.toNat_ofNat]
      simp only [Endian.word]
      omega

theorem toNat_lower (value : BitVec 16) :
    (⟨value.extractLsb' 0 8⟩ : UInt8).toNat = value.toNat % 256 := by
  change (value.extractLsb' 0 8).toNat = _
  rw [BitVec.extractLsb'_toNat, Nat.shiftRight_zero]

theorem toNat_upper (value : BitVec 16) :
    (⟨value.extractLsb' 8 8⟩ : UInt8).toNat = value.toNat / 256 := by
  have small := value.isLt
  change (value.extractLsb' 8 8).toNat = _
  rw [BitVec.extractLsb'_toNat, Nat.shiftRight_eq_div_pow]
  omega

/-- What a receiver reads in network order where the host has stored `value`. -/
theorem big_word_bytes (order : Endian) (value : BitVec 16) :
    Endian.big.word ((order.bytes value).getD 0 0) ((order.bytes value).getD 1 0) =
      (htons order value).toNat := by
  have lower := toNat_lower value
  have upper := toNat_upper value
  cases order with
  | little =>
      rw [toNat_htons_little, ← upper, ← lower]
      rfl
  | big =>
      change 256 * (⟨value.extractLsb' 8 8⟩ : UInt8).toNat + (⟨value.extractLsb' 0 8⟩ : UInt8).toNat
        = value.toNat
      omega

theorem htons_htons (order : Endian) (value : BitVec 16) :
    htons order (htons order value) = value := by
  cases order with
  | little =>
      apply BitVec.eq_of_toNat_eq
      have small := value.isLt
      rw [toNat_htons_little, toNat_htons_little]
      omega
  | big => rfl

theorem wordSum_encode_add (order : Endian) {value size : Nat} (upper : Nat)
    (even : size % 2 = 0) (more : upper % 2 = 0) (fits : value < 256 ^ size) :
    wordSum order (encode order (size + upper) value) =
      wordSum order (encode order size value) := by
  have zeros := Halfwords.wordSum_zeros order upper
  cases order with
  | little =>
      rw [encode, encode, little_add upper fits,
        Halfwords.wordSum_append _ _ _ (by rw [length_little, even]), zeros, Nat.add_zero]
  | big =>
      rw [encode, encode, little_add upper fits, List.reverse_append, List.reverse_replicate,
        Halfwords.wordSum_append _ _ _ (by rw [List.length_replicate, more]), zeros, Nat.zero_add]

/-! Loads of the host from memory whose bytes are `byte`. -/

def load16 (order : Endian) (byte : Nat → UInt8) (i : Nat) : BitVec 16 :=
  BitVec.ofNat 16 (order.word (byte i) (byte (i + 1)))

def load32 (order : Endian) (byte : Nat → UInt8) (i : Nat) : BitVec 32 :=
  BitVec.ofNat 32 (decode order [byte i, byte (i + 1), byte (i + 2), byte (i + 3)])

theorem load16_eq_iff (order : Endian) (byte : Nat → UInt8) (i : Nat) (value : BitVec 16) :
    load16 order byte i = value ↔ [byte i, byte (i + 1)] = order.bytes value := by
  have first := (byte i).toNat_lt
  have second := (byte (i + 1)).toNat_lt
  have lower := toNat_lower value
  have upper := toNat_upper value
  rw [load16, ← BitVec.toNat_inj, BitVec.toNat_ofNat,
    Nat.mod_eq_of_lt (Halfwords.word_lt order _ _)]
  cases order with
  | little =>
      simp only [Endian.word, Endian.bytes, List.cons.injEq, and_true, ← UInt8.toNat_inj]
      omega
  | big =>
      simp only [Endian.word, Endian.bytes, List.cons.injEq, and_true, ← UInt8.toNat_inj]
      omega

theorem ofNat_decode_eq_iff (order : Endian) {bytes : Bytes} (four : bytes.length = 4)
    (value : BitVec 32) :
    BitVec.ofNat 32 (decode order bytes) = value ↔ bytes = encode order 4 value.toNat := by
  have fits : value.toNat < 256 ^ 4 := value.isLt
  have small : decode order bytes < 2 ^ 32 := by
    have bound := decode_lt order bytes
    rwa [four] at bound
  have whole := encode_decode order bytes
  rw [four] at whole
  rw [← BitVec.toNat_inj, BitVec.toNat_ofNat, Nat.mod_eq_of_lt small]
  constructor
  · intro same
    rw [← same, whole]
  · intro same
    rw [same, decode_encode, Nat.mod_eq_of_lt fits]

theorem load32_eq_iff (order : Endian) (byte : Nat → UInt8) (i : Nat) (value : BitVec 32) :
    load32 order byte i = value ↔
      [byte i, byte (i + 1), byte (i + 2), byte (i + 3)] = encode order 4 value.toNat :=
  ofNat_decode_eq_iff order rfl value

def load (order : Endian) (size : Nat) (byte : Nat → UInt8) (i : Nat) : Nat :=
  decode order ((List.range size).map fun k => byte (i + k))

theorem load_eq (order : Endian) {byte : Nat → UInt8} {i : Nat} {bytes : Bytes}
    (same : ∀ k, k < bytes.length → byte (i + k) = bytes.getD k 0) :
    load order bytes.length byte i = decode order bytes := by
  rw [load]
  congr 1
  apply List.ext_getElem
  · simp
  · intro k _ inside
    rw [List.getElem_map, List.getElem_range, same k inside, List.getD_eq_getElem?_getD,
      List.getElem?_eq_getElem inside]
    rfl

end NetworkTest.MemoryBytes
