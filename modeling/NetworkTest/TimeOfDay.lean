import Mathlib.Data.Rat.Defs
import Mathlib.Tactic.Linarith
import NetworkTest.Checksum
import NetworkTest.MemoryBytes

/-!
`struct timeval` and the subtraction of fri/raw/my_ping2.c, in `long`s of 32 or
64 bits. The times of the clock are counted from the Epoch on and are
normalised; differences may be negative.
-/

namespace NetworkTest.TimeOfDay

open CBuffer (Bytes)
open Checksum (LongWidth Long)
open Halfwords (Endian)
open MemoryBytes (encode decode load)

structure Time (width : LongWidth) where
  sec : Nat
  usec : Nat
  small : sec < 2 ^ (width.size - 1)
  normal : usec < 1000000
  deriving DecidableEq

structure Timeval (width : LongWidth) where
  tv_sec : Long width
  tv_usec : Long width
  deriving DecidableEq

section

variable {width : LongWidth}

/-- What `gettimeofday` stores. -/
def Time.timeval (time : Time width) : Timeval width :=
  ⟨BitVec.ofNat _ time.sec, BitVec.ofNat _ time.usec⟩

def Time.milliseconds (time : Time width) : Rat := time.sec * 1000 + time.usec / 1000

/-- `tv_sec * 1000.0 + tv_usec / 1000.0`. The double of the source is so near to it,
below 2^43 milliseconds, that `%.3f` shows this number. -/
def Timeval.milliseconds (value : Timeval width) : Rat :=
  value.tv_sec.toInt * 1000 + value.tv_usec.toInt / 1000

def tv_sub (out value : Timeval width) : Timeval width :=
  let tv_usec := out.tv_usec - value.tv_usec
  if tv_usec.toInt < 0 then
    ⟨out.tv_sec - 1#_ - value.tv_sec, tv_usec + BitVec.ofNat _ 1000000⟩
  else ⟨out.tv_sec - value.tv_sec, tv_usec⟩

/-- The structure as it lies in memory. -/
def Timeval.bytes (order : Endian) (value : Timeval width) : Bytes :=
  encode order (width.size / 8) value.tv_sec.toNat ++
    encode order (width.size / 8) value.tv_usec.toNat

def Timeval.load (width : LongWidth) (order : Endian) (byte : Nat → UInt8) (i : Nat) :
    Timeval width :=
  ⟨BitVec.ofNat _ (MemoryBytes.load order (width.size / 8) byte i),
    BitVec.ofNat _ (MemoryBytes.load order (width.size / 8) byte (i + width.size / 8))⟩

theorem ofNat_decode (order : Endian) (value : Long width) :
    BitVec.ofNat width.size (decode order (encode order (width.size / 8) value.toNat)) = value := by
  have small := value.isLt
  apply BitVec.eq_of_toNat_eq
  rw [BitVec.toNat_ofNat, MemoryBytes.decode_encode]
  cases width <;> simp only [LongWidth.size] at small ⊢ <;> omega

theorem load_bytes (order : Endian) (value : Timeval width) {byte : Nat → UInt8} {i : Nat}
    (same : ∀ k, k < (value.bytes order).length → byte (i + k) = (value.bytes order).getD k 0) :
    Timeval.load width order byte i = value := by
  have sec : MemoryBytes.load order (width.size / 8) byte i =
      decode order (encode order (width.size / 8) value.tv_sec.toNat) := by
    have loaded := @MemoryBytes.load_eq order byte i
      (encode order (width.size / 8) value.tv_sec.toNat)
    rw [MemoryBytes.length_encode] at loaded
    apply loaded
    intro k inside
    rw [same k (by simp [Timeval.bytes]; omega), Timeval.bytes, List.getD_eq_getElem?_getD,
      List.getD_eq_getElem?_getD, List.getElem?_append_left (by simpa using inside)]
  have usec : MemoryBytes.load order (width.size / 8) byte (i + width.size / 8) =
      decode order (encode order (width.size / 8) value.tv_usec.toNat) := by
    have loaded := @MemoryBytes.load_eq order byte (i + width.size / 8)
      (encode order (width.size / 8) value.tv_usec.toNat)
    rw [MemoryBytes.length_encode] at loaded
    apply loaded
    intro k inside
    rw [Nat.add_assoc, same _ (by simp [Timeval.bytes]; omega), Timeval.bytes,
      List.getD_eq_getElem?_getD, List.getD_eq_getElem?_getD,
      List.getElem?_append_right (by simp), MemoryBytes.length_encode, Nat.add_sub_cancel_left]
  rw [Timeval.load, sec, usec, ofNat_decode, ofNat_decode]

/-! Differences of times fit into a `long`. -/

theorem toInt_ofNat {value : Nat} (small : value < 2 ^ (width.size - 1)) :
    (BitVec.ofNat width.size value).toInt = value := by
  have toNat : (BitVec.ofNat width.size value).toNat = value := by
    rw [BitVec.toNat_ofNat]
    apply Nat.mod_eq_of_lt
    cases width <;> simp only [LongWidth.size] at small ⊢ <;> omega
  rw [BitVec.toInt_eq_toNat_of_lt, toNat]
  cases width <;> simp only [LongWidth.size] at small toNat ⊢ <;> omega

theorem toInt_sub {left right : Long width}
    (low : -((2 ^ (width.size - 1) : Nat) : Int) ≤ left.toInt - right.toInt)
    (high : left.toInt - right.toInt < (2 ^ (width.size - 1) : Nat)) :
    (left - right).toInt = left.toInt - right.toInt := by
  rw [BitVec.toInt_sub]
  cases width <;> simp only [LongWidth.size] at left right low high ⊢ <;>
    exact Int.bmod_eq_of_le (by omega) (by omega)

theorem toInt_add {left right : Long width}
    (low : -((2 ^ (width.size - 1) : Nat) : Int) ≤ left.toInt + right.toInt)
    (high : left.toInt + right.toInt < (2 ^ (width.size - 1) : Nat)) :
    (left + right).toInt = left.toInt + right.toInt := by
  rw [BitVec.toInt_add]
  cases width <;> simp only [LongWidth.size] at left right low high ⊢ <;>
    exact Int.bmod_eq_of_le (by omega) (by omega)

theorem million_lt (width : LongWidth) : 1000000 < 2 ^ (width.size - 1) := by
  cases width <;> decide

theorem Time.toInt_sec (time : Time width) : time.timeval.tv_sec.toInt = time.sec :=
  toInt_ofNat time.small

theorem Time.toInt_usec (time : Time width) : time.timeval.tv_usec.toInt = time.usec :=
  toInt_ofNat (Nat.lt_trans time.normal (million_lt width))

theorem milliseconds_timeval (time : Time width) :
    time.timeval.milliseconds = time.milliseconds := by
  rw [Timeval.milliseconds, time.toInt_sec, time.toInt_usec, Time.milliseconds,
    Int.cast_natCast, Int.cast_natCast]

theorem tv_sub_fields (receive send : Time width) :
    ∃ borrow : Int, 0 ≤ borrow ∧
      (tv_sub receive.timeval send.timeval).tv_sec.toInt = receive.sec - borrow - send.sec ∧
      (tv_sub receive.timeval send.timeval).tv_usec.toInt =
        receive.usec - send.usec + borrow * 1000000 ∧
      0 ≤ (receive.usec : Int) - send.usec + borrow * 1000000 ∧
      (receive.usec : Int) - send.usec + borrow * 1000000 < 1000000 := by
  have million := million_lt width
  have early := receive.small
  have late := send.small
  have first := receive.normal
  have second := send.normal
  have receiveSec := receive.toInt_sec
  have sendSec := send.toInt_sec
  have receiveUsec := receive.toInt_usec
  have sendUsec := send.toInt_usec
  have one : (BitVec.ofNat width.size 1).toInt = 1 := toInt_ofNat (by omega)
  have whole : (BitVec.ofNat width.size 1000000).toInt = 1000000 := toInt_ofNat million
  have usec : (receive.timeval.tv_usec - send.timeval.tv_usec).toInt =
      receive.usec - send.usec := by
    rw [toInt_sub, receiveUsec, sendUsec] <;> rw [receiveUsec, sendUsec] <;> omega
  rw [tv_sub, usec]
  split
  case isTrue negative =>
      have before : (receive.timeval.tv_sec - BitVec.ofNat width.size 1).toInt =
          receive.sec - 1 := by
        rw [toInt_sub, receiveSec, one] <;> rw [receiveSec, one] <;> omega
      have sec : (receive.timeval.tv_sec - BitVec.ofNat width.size 1 - send.timeval.tv_sec).toInt =
          receive.sec - 1 - send.sec := by
        rw [toInt_sub, before, sendSec] <;> rw [before, sendSec] <;> omega
      have borrowed : (receive.timeval.tv_usec - send.timeval.tv_usec +
          BitVec.ofNat width.size 1000000).toInt = receive.usec - send.usec + 1000000 := by
        rw [toInt_add, usec, whole] <;> rw [usec, whole] <;> omega
      exact ⟨1, by omega, sec, by rw [borrowed]; omega, by omega, by omega⟩
  case isFalse =>
      have sec : (receive.timeval.tv_sec - send.timeval.tv_sec).toInt =
          receive.sec - send.sec := by
        rw [toInt_sub, receiveSec, sendSec] <;> rw [receiveSec, sendSec] <;> omega
      exact ⟨0, by omega, by rw [sec]; omega, by rw [usec]; omega, by omega, by omega⟩

/-- The difference is exact, as a number of milliseconds. -/
theorem tv_sub_exact (receive send : Time width) :
    0 ≤ (tv_sub receive.timeval send.timeval).tv_usec.toInt ∧
      (tv_sub receive.timeval send.timeval).tv_usec.toInt < 1000000 ∧
      (tv_sub receive.timeval send.timeval).milliseconds =
        receive.milliseconds - send.milliseconds := by
  obtain ⟨borrow, _, sec, usec, low, high⟩ := tv_sub_fields receive send
  refine ⟨by omega, by omega, ?_⟩
  rw [Timeval.milliseconds, sec, usec, Time.milliseconds, Time.milliseconds]
  push_cast
  ring

end

end NetworkTest.TimeOfDay
