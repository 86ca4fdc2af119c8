import NetworkTest.Checksum
import NetworkTest.InCksum

/-!
The two checksum functions of fri/raw on the same buffer: `in_cksum` of
myping.c and `cksum_in` of my_ping2.c.
-/

namespace NetworkTest.ChecksumsAgree

open CBuffer (Bytes)
open Checksum (LongWidth cksum_in)
open Halfwords (Endian words wordSum)
open InCksum (in_cksum)

/-- The word sum is one of the zeros of ones' complement addition, written with
ones. -/
def OnesZero (order : Endian) (data : Bytes) : Prop :=
  0 < wordSum order data ∧ wordSum order data % 65535 = 0

instance (order : Endian) (data : Bytes) : Decidable (OnesZero order data) :=
  inferInstanceAs (Decidable (_ ∧ _))

theorem toNat_in_cksum (order : Endian) {data : Bytes} (even : data.length % 2 = 0)
    (short : data.length ≤ 65534) :
    (in_cksum order data).toNat =
      if OnesZero order data then 0 else 65535 - wordSum order data % 65535 := by
  have bound := Halfwords.wordSum_le order data
  have result := @InCksum.in_cksum_whole order data [] even (by simp) (by omega)
  have small := @OnesComplement.sum_lt 65536 _ (by omega) (Halfwords.words_lt order data)
  have residue := @OnesComplement.sum_mod 65536 (words order data)
  have positive := @OnesComplement.sum_pos_iff 65536 (words order data) (by omega)
  rw [List.append_nil] at result
  rw [result, InCksum.rfc1071, BitVec.toNat_not, BitVec.toNat_ofNat, Nat.mod_eq_of_lt small]
  by_cases zero : OnesZero order data
  · rw [if_pos zero]
    simp only [OnesZero, wordSum] at zero
    omega
  · rw [if_neg zero]
    simp only [OnesZero, wordSum] at zero ⊢
    omega

/-- The two agree, but for the two ways of writing zero. -/
theorem checksums_agree_iff (width : LongWidth) (order : Endian) (data : Bytes)
    (even : data.length % 2 = 0) (short : data.length ≤ 65534) :
    (in_cksum order data = cksum_in width order data ↔ ¬ OnesZero order data) ∧
      (OnesZero order data →
        in_cksum order data = 0#16 ∧ cksum_in width order data = 0xffff#16) := by
  have left := toNat_in_cksum order even short
  have right := Checksum.toNat_cksum_in_wordSum width order data
  rw [← BitVec.toNat_inj, ← BitVec.toNat_inj, ← BitVec.toNat_inj, left, right]
  by_cases zero : OnesZero order data
  · rw [if_pos zero, zero.2]
    exact ⟨⟨nofun, fun other => absurd zero other⟩, fun _ => ⟨rfl, rfl⟩⟩
  · rw [if_neg zero]
    exact ⟨⟨fun _ => zero, fun _ => rfl⟩, fun other => absurd other zero⟩

/-- An echo request of ping: the checksums are the same. -/
theorem checksums_agree_echoRequest :
    in_cksum .little [8, 0, 0, 0, 57, 48, 1, 0] =
      cksum_in .bits64 .little [8, 0, 0, 0, 57, 48, 1, 0] :=
  (checksums_agree_iff .bits64 .little _ (by decide) (by decide)).1.mpr (by decide)

end NetworkTest.ChecksumsAgree
