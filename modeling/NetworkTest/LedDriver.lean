import NetworkTest.BitField
import NetworkTest.CBuffer

/-!
The `write` functions of the two LED drivers, fri/ledok/driver.c and
thu/homework/led_driver.c. Both copy the caller's bytes into a buffer and set
bits 7..4 of GPFDAT, which are active low, from the first of them.
-/

namespace NetworkTest.LedDriver

open CBuffer (Bytes)

abbrev Register := BitVec 32

/-- `led_display`; `Led_Display` of thu/homework/led_driver.c is the same. -/
def led_display (gpfdat : Register) (data : BitVec 32) : Register :=
  (gpfdat &&& ~~~(0xf#32 <<< 4)) ||| ((~~~data &&& 0xf#32) <<< 4)

/-- A `char` as an `int`; on the ARM it is unsigned. -/
def toInt (byte : UInt8) : BitVec 32 := byte.toBitVec.setWidth 32

def EFAULT : Int := 14

inductive Access where
  | kmalloc (count : Nat) (ok : Bool)
  | copyFromUser (stored : Nat)
  | load (index : Nat)
  | kfree
  deriving DecidableEq

/-- Where a call has got to: it returns, or stops at an access that faults. -/
inductive Outcome where
  | returned (value : Int)
  | fault
  deriving DecidableEq

structure Written where
  gpfdat : Register
  outcome : Outcome
  accesses : List Access
  deriving DecidableEq

/-- The common part of both functions: `kmalloc` succeeds or not, and
`copy_from_user` leaves `uncopied` bytes out, whose places it fills with zeros;
`display` is what is done with the first byte, and `last` what follows it. -/
def copied (gpfdat : Register) (allocated : Bool) (uncopied : Nat) (user : Bytes)
    (display : UInt8 → Register) (last : List Access) : Written :=
  let made := [.kmalloc user.length allocated, .copyFromUser user.length]
  if allocated = false ∧ user ≠ [] then
    { gpfdat := gpfdat, outcome := .fault, accesses := made }
  else if uncopied ≠ 0 then
    { gpfdat := gpfdat, outcome := .returned (-EFAULT), accesses := made }
  else
    match user with
    | [] => { gpfdat := gpfdat, outcome := .fault, accesses := made ++ [.load 0] }
    | first :: _ =>
        { gpfdat := display first
          outcome := .returned 0
          accesses := made ++ .load 0 :: last }

/-- `led_write` of fri/ledok/driver.c. -/
def led_write (gpfdat : Register) (allocated : Bool) (uncopied : Nat) (user : Bytes) : Written :=
  copied gpfdat allocated uncopied user (fun first => led_display gpfdat (toInt first)) [.kfree]

/-- The `switch` of thu/homework/led_driver.c; its cases are the digits 1 to 4. -/
def mode (number : UInt8) : BitVec 32 :=
  match number with
  | 49 => 1
  | 50 => 2
  | 51 => 4
  | 52 => 8
  | _ => 0

/-- `led_write` of thu/homework/led_driver.c, which never frees its buffer. -/
def led_write_mode (gpfdat : Register) (allocated : Bool) (uncopied : Nat) (user : Bytes) :
    Written :=
  copied gpfdat allocated uncopied user (fun first => led_display gpfdat (mode first)) []

theorem led_display_eq (gpfdat : Register) (data : BitVec 32) :
    led_display gpfdat data = BitField.write gpfdat 4 4 (~~~data) := rfl

theorem getLsbD_display (gpfdat : Register) (data : BitVec 32) (i : Nat) :
    (led_display gpfdat data).getLsbD i =
      if 4 ≤ i ∧ i < 8 then !data.getLsbD (i - 4) else gpfdat.getLsbD i := by
  rw [led_display_eq, BitField.getLsbD_write]
  by_cases field : 4 ≤ i ∧ i < 8
  · have inside : i < 32 ∧ i - 4 < 32 := by omega
    rw [if_pos field, if_pos field]
    simp [inside]
  · rw [if_neg field, if_neg field]

/-- LED `k` is lit: the active-low bit is 0. -/
def Lit (gpfdat : Register) (k : Nat) : Prop := gpfdat.getLsbD (3 + k) = false

instance (gpfdat : Register) (k : Nat) : Decidable (Lit gpfdat k) :=
  inferInstanceAs (Decidable (_ = _))

/-- The bits of the register that are not LEDs are the same. -/
def SameOutside (before after : Register) : Prop :=
  ∀ i, i < 4 ∨ 8 ≤ i → after.getLsbD i = before.getLsbD i

theorem same_refl (gpfdat : Register) : SameOutside gpfdat gpfdat := fun _ _ => rfl

theorem same_trans {first second third : Register} (early : SameOutside first second)
    (late : SameOutside second third) : SameOutside first third :=
  fun i outside => (late i outside).trans (early i outside)

theorem same_display (gpfdat : Register) (data : BitVec 32) :
    SameOutside gpfdat (led_display gpfdat data) := by
  intro i outside
  rw [getLsbD_display, if_neg (by omega)]

theorem lit_display_iff (gpfdat : Register) (data : BitVec 32) {k : Nat} (led : 1 ≤ k ∧ k ≤ 4) :
    Lit (led_display gpfdat data) k ↔ data.getLsbD (k - 1) = true := by
  have place : 3 + k - 4 = k - 1 := by omega
  rw [Lit, getLsbD_display, if_pos (by omega), place, Bool.not_eq_false']

end NetworkTest.LedDriver
