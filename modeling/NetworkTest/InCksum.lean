import NetworkTest.Halfwords
import NetworkTest.IntBytes
import NetworkTest.OnesComplement

/-!
`in_cksum` of fri/raw/myping.c. The accumulator is an `int`, the carries are
put back twice and not in a loop, and the odd byte is looked for with
`nleft==-1`.
-/

namespace NetworkTest.InCksum

open CBuffer (Bytes)
open Halfwords (Endian words wordSum)
open IntBytes (Word)

structure Addition where
  left : Word
  right : Word
  deriving DecidableEq

def Addition.Exact (addition : Addition) : Prop :=
  addition.left.saddOverflow addition.right = false

/-- `while(nleft>1)`: the additions, and then `sum`, `nleft` and `w`. -/
def addWords (order : Endian) (sum : Word) (nleft : Int) :
    Bytes → List Addition × Word × Int × Bytes
  | first :: second :: rest =>
      if nleft > 1 then
        let word := BitVec.ofNat 32 (order.word first second)
        let later := addWords order (sum + word) (nleft - 2) rest
        (⟨sum, word⟩ :: later.1, later.2)
      else ([], sum, nleft, first :: second :: rest)
  | w => ([], sum, nleft, w)

/-- `if( nleft==-1)`. -/
def addOdd (order : Endian) (sum : Word) (nleft : Int) (w : Bytes) : List Addition × Word :=
  if nleft = -1 then
    let answer := BitVec.ofNat 32 (order.word (w.headD 0) 0)
    ([⟨sum, answer⟩], sum + answer)
  else ([], sum)

/-- `sum = (sum >> 16) + (sum & 0xffff); sum += (sum>>16);` -/
def foldTwice (sum : Word) : List Addition × Word :=
  let upper := sum.sshiftRight 16
  let lower := sum &&& 0xffff#32
  let folded := upper + lower
  let carry := folded.sshiftRight 16
  ([⟨upper, lower⟩, ⟨folded, carry⟩], folded + carry)

def accumulate (order : Endian) (data : Bytes) : List Addition × Word :=
  let (adds, sum, nleft, w) := addWords order 0#32 data.length data
  let (odd, sum) := addOdd order sum nleft w
  let (folds, sum) := foldTwice sum
  (adds ++ odd ++ folds, sum)

def in_cksum (order : Endian) (data : Bytes) : BitVec 16 :=
  (~~~(accumulate order data).2).setWidth 16

/-- The checksum of RFC 1071. -/
def rfc1071 (order : Endian) (data : Bytes) : BitVec 16 :=
  ~~~BitVec.ofNat 16 (OnesComplement.sum 65536 (words order data))

theorem toNat_add (left right : Word) (room : left.toNat + right.toNat < 2147483648) :
    (left + right).toNat = left.toNat + right.toNat := by
  rw [BitVec.toNat_add, Nat.mod_eq_of_lt (by omega)]

theorem exact_add (left right : Word) (room : left.toNat + right.toNat < 2147483648) :
    (Addition.mk left right).Exact := by
  have first : left.toInt = left.toNat := BitVec.toInt_eq_toNat_of_lt (by omega)
  have second : right.toInt = right.toNat := BitVec.toInt_eq_toNat_of_lt (by omega)
  simp only [Addition.Exact, BitVec.saddOverflow, first, second, Bool.or_eq_false_iff,
    decide_eq_false_iff_not]
  omega

theorem toNat_upper (sum : Word) (small : sum.toNat < 2147483648) :
    (sum.sshiftRight 16).toNat = sum.toNat / 65536 := by
  have msb : sum.msb = false := by
    rw [BitVec.msb_eq_decide, decide_eq_false_iff_not]
    omega
  rw [BitVec.toNat_sshiftRight_of_msb_false msb, Nat.shiftRight_eq_div_pow]

theorem toNat_lower (sum : Word) : (sum &&& 0xffff#32).toNat = sum.toNat % 65536 := by
  rw [BitVec.toNat_and]
  exact Nat.and_two_pow_sub_one_eq_mod sum.toNat 16

theorem foldTwice_exact (sum : Word) (small : sum.toNat < 2147483648) :
    (∀ addition ∈ (foldTwice sum).1, addition.Exact) ∧
      (foldTwice sum).2.toNat % 65536 =
        OnesComplement.fold 65536 (OnesComplement.fold 65536 sum.toNat) := by
  have upper := toNat_upper sum small
  have lower := toNat_lower sum
  have bound : sum.toNat / 65536 < 32768 := by omega
  have folded : (sum.sshiftRight 16 + (sum &&& 0xffff#32)).toNat =
      OnesComplement.fold 65536 sum.toNat := by
    rw [toNat_add _ _ (by omega), upper, lower, OnesComplement.fold, Nat.add_comm]
  have once : OnesComplement.fold 65536 sum.toNat < 98304 := by
    rw [OnesComplement.fold]
    omega
  have carry := toNat_upper (sum.sshiftRight 16 + (sum &&& 0xffff#32)) (by omega)
  constructor
  · simp only [foldTwice, List.forall_mem_cons, List.not_mem_nil, false_implies, implies_true,
      and_true]
    exact ⟨exact_add _ _ (by omega), exact_add _ _ (by omega)⟩
  · have twice := @OnesComplement.fold_fold_lt 65536 sum.toNat (by omega)
      (Nat.lt_trans small (by decide))
    rw [foldTwice, toNat_add _ _ (by omega), carry, folded]
    generalize OnesComplement.fold 65536 sum.toNat = value at twice
    rw [OnesComplement.fold] at twice ⊢
    omega

section

variable {order : Endian} {front rest : Bytes}

theorem addWords_whole (sum : Word) (even : front.length % 2 = 0) (odd : rest.length ≤ 1)
    (room : sum.toNat + wordSum order front < 2147483648) :
    (∀ addition ∈ (addWords order sum (front ++ rest).length (front ++ rest)).1,
        addition.Exact) ∧
      ∃ last, (addWords order sum (front ++ rest).length (front ++ rest)).2 =
          (last, (rest.length : Int), rest) ∧
        last.toNat = sum.toNat + wordSum order front := by
  induction front using Halfwords.words.induct generalizing sum with
  | case1 first second front ih =>
      have word := Halfwords.word_lt order first second
      have value : (BitVec.ofNat 32 (order.word first second)).toNat = order.word first second := by
        rw [BitVec.toNat_ofNat, Nat.mod_eq_of_lt (by omega)]
      simp only [wordSum, words, List.sum_cons] at room ih ⊢
      have added := toNat_add sum (BitVec.ofNat 32 (order.word first second)) (by omega)
      have more : ((first :: second :: (front ++ rest)).length : Int) > 1 := by
        simp only [List.length_cons]
        omega
      have left : ((first :: second :: (front ++ rest)).length : Int) - 2 =
          ((front ++ rest).length : Int) := by
        simp only [List.length_cons]
        omega
      rw [List.length_cons, List.length_cons] at even
      obtain ⟨later, last, final, total⟩ :=
        ih (sum + BitVec.ofNat 32 (order.word first second)) (by omega) (by omega)
      simp only [List.cons_append, addWords, if_pos more, left, List.forall_mem_cons]
      exact ⟨⟨exact_add _ _ (by omega), later⟩, last, final, by omega⟩
  | case2 last => simp at even
  | case3 =>
      rcases rest with _ | ⟨last, _ | ⟨other, more⟩⟩
      · exact ⟨by simp [addWords], sum, rfl, rfl⟩
      · exact ⟨by simp [addWords], sum, rfl, rfl⟩
      · simp at odd

/-- The byte left over is never looked at: `nleft` is 0 or 1 there. -/
theorem accumulate_whole (even : front.length % 2 = 0) (odd : rest.length ≤ 1)
    (room : wordSum order front < 2147483648) :
    (∀ addition ∈ (accumulate order (front ++ rest)).1, addition.Exact) ∧
      (accumulate order (front ++ rest)).2.toNat % 65536 =
        OnesComplement.sum 65536 (words order front) := by
  obtain ⟨adds, last, final, total⟩ := addWords_whole 0#32 even odd (by simpa using room)
  rw [BitVec.toNat_ofNat, Nat.zero_mod, Nat.zero_add] at total
  obtain ⟨folds, value⟩ := foldTwice_exact last (by omega)
  have untouched : ¬ (rest.length : Int) = -1 := by omega
  simp only [accumulate, final, addOdd, if_neg untouched, List.append_nil]
  refine ⟨?_, ?_⟩
  · rw [List.forall_mem_append]
    exact ⟨adds, folds⟩
  · rw [value, total]
    apply @OnesComplement.eq_of_mod 65536 _ _ (by omega)
    · exact OnesComplement.fold_fold_lt (by omega) (Nat.lt_trans room (by decide))
    · exact OnesComplement.sum_lt (by omega) (Halfwords.words_lt order front)
    · rw [OnesComplement.fold_pos_iff, OnesComplement.fold_pos_iff,
        OnesComplement.sum_pos_iff (by omega), wordSum]
    · rw [OnesComplement.fold_mod, OnesComplement.fold_mod, OnesComplement.sum_mod, wordSum]

theorem in_cksum_whole (even : front.length % 2 = 0) (odd : rest.length ≤ 1)
    (room : wordSum order front < 2147483648) :
    in_cksum order (front ++ rest) = rfc1071 order front := by
  have value := (accumulate_whole even odd room).2
  have small := (accumulate order (front ++ rest)).2.isLt
  apply BitVec.eq_of_toNat_eq
  rw [in_cksum, rfc1071, BitVec.toNat_setWidth, BitVec.toNat_not, BitVec.toNat_not,
    BitVec.toNat_ofNat, ← value]
  omega

theorem cancelled (order : Endian) (data : Bytes) :
    (wordSum order data + (rfc1071 order data).toNat) % 65535 = 0 := by
  have small := @OnesComplement.sum_lt 65536 _ (by omega) (Halfwords.words_lt order data)
  have residue := @OnesComplement.sum_mod 65536 (words order data)
  rw [rfc1071, BitVec.toNat_not, BitVec.toNat_ofNat, Nat.mod_eq_of_lt small, wordSum]
  omega

/-- The odd byte counts, unless it is zero. -/
theorem rfc1071_odd_iff (even : front.length % 2 = 0) (last : UInt8) :
    rfc1071 order front = rfc1071 order (front ++ [last]) ↔ last = 0 := by
  have before := @OnesComplement.sum_lt 65536 _ (by omega) (Halfwords.words_lt order front)
  have after := @OnesComplement.sum_lt 65536 _ (by omega)
    (Halfwords.words_lt order (front ++ [last]))
  have more : OnesComplement.sum 65536 (words order (front ++ [last])) =
      OnesComplement.add 65536 (OnesComplement.sum 65536 (words order front))
        (order.word last 0) := by
    rw [Halfwords.words_append order front [last] even, words, OnesComplement.sum,
      List.foldl_append]
    rfl
  have same : rfc1071 order front = rfc1071 order (front ++ [last]) ↔
      OnesComplement.sum 65536 (words order front) =
        OnesComplement.sum 65536 (words order (front ++ [last])) := by
    rw [rfc1071, rfc1071, BitVec.not_inj, ← BitVec.toNat_inj, BitVec.toNat_ofNat,
      BitVec.toNat_ofNat, Nat.mod_eq_of_lt before, Nat.mod_eq_of_lt after]
  have byte := last.toNat_lt
  have word : order.word last 0 < 65535 ∧ (order.word last 0 = 0 ↔ last = 0) := by
    rw [← UInt8.toNat_inj, UInt8.toNat_zero]
    cases order <;> simp only [Endian.word, UInt8.toNat_zero] <;> omega
  rw [same, more, ← word.2, OnesComplement.add]
  split <;> omega

end

/-- No `int` overflows for up to 65535 bytes, and the result is the checksum of
RFC 1071 if and only if there is no odd byte at the end or it is zero. -/
theorem in_cksum_rfc1071_iff (order : Endian) (data : Bytes) (short : data.length ≤ 65535) :
    ((∀ addition ∈ (accumulate order data).1, addition.Exact) ∧
        in_cksum order data = rfc1071 order data) ↔
      data.length % 2 = 0 ∨ data.getLast? = some 0 := by
  rcases Nat.mod_two_eq_zero_or_one data.length with even | odd
  · have bound := Halfwords.wordSum_le order data
    have exact := (@accumulate_whole order data [] even (by simp) (by omega)).1
    have result := @in_cksum_whole order data [] even (by simp) (by omega)
    rw [List.append_nil] at exact result
    exact ⟨fun _ => .inl even, fun _ => ⟨exact, result⟩⟩
  · rcases List.eq_nil_or_concat data with rfl | ⟨front, last, rfl⟩
    · simp at odd
    rw [List.concat_eq_append] at short odd ⊢
    rw [List.length_append, List.length_singleton] at short odd
    have even : front.length % 2 = 0 := by omega
    have bound := Halfwords.wordSum_le order front
    have exact := (@accumulate_whole order front [last] even (by simp) (by omega)).1
    rw [in_cksum_whole even (by simp) (by omega), rfc1071_odd_iff even, List.getLast?_concat,
      List.length_append, List.length_singleton]
    constructor
    · rintro ⟨_, rfl⟩
      exact .inr rfl
    · rintro (whole | zero)
      · omega
      · exact ⟨exact, Option.some.inj zero⟩

theorem in_cksum_rfc1071_threeBytes :
    (∀ addition ∈ (accumulate .little [69, 3, 0]).1, addition.Exact) ∧
      in_cksum .little [69, 3, 0] = rfc1071 .little [69, 3, 0] :=
  (in_cksum_rfc1071_iff .little [69, 3, 0] (by decide)).mpr (.inr rfl)

/-- The byte 1 alone: the checksum is 0xfffe, and 0xffff is returned. -/
theorem in_cksum_odd_differs :
    in_cksum .little [1] = 0xffff#16 ∧ rfc1071 .little [1] = 0xfffe#16 ∧
      in_cksum .little [1] ≠ rfc1071 .little [1] := by
  decide

end NetworkTest.InCksum
