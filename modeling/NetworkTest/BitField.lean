/-!
A field of neighbouring bits of a register: writing it changes these bits and
no other.
-/

namespace NetworkTest.BitField

variable {size : Nat}

def mask (size width : Nat) : BitVec size := BitVec.ofNat size (1 <<< width - 1)

/-- The register with the lowest `width` bits of `value` from bit `low` on. -/
def write (register : BitVec size) (low width : Nat) (value : BitVec size) : BitVec size :=
  (register &&& ~~~(mask size width <<< low)) ||| ((value &&& mask size width) <<< low)

theorem getLsbD_mask (width i : Nat) :
    (mask size width).getLsbD i = decide (i < size ∧ i < width) := by
  simp [mask, BitVec.getLsbD_ofNat, Nat.shiftLeft_eq]

theorem getLsbD_write (register value : BitVec size) (low width i : Nat) :
    (write register low width value).getLsbD i =
      if low ≤ i ∧ i < low + width then decide (i < size) && value.getLsbD (i - low)
      else register.getLsbD i := by
  simp only [write, BitVec.getLsbD_or, BitVec.getLsbD_and, BitVec.getLsbD_not,
    BitVec.getLsbD_shiftLeft, getLsbD_mask]
  rcases Nat.lt_or_ge i size with inside | beyond
  · by_cases field : low ≤ i ∧ i < low + width
    · have upper : i - low < size ∧ i - low < width := by omega
      have above : ¬ i < low := by omega
      simp [inside, above, upper, field]
    · rw [if_neg field]
      rcases Nat.lt_or_ge i low with below | above
      · simp [inside, below]
      · have upper : ¬ i - low < width := by omega
        simp [inside, upper]
  · simp [BitVec.getLsbD_of_ge _ _ beyond, Nat.not_lt.mpr beyond]

end NetworkTest.BitField
