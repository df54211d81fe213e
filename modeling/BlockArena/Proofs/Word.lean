import Mathlib.Data.Nat.Bitwise
import BlockArena.Arena.Basic

/-! # Word arithmetic that does not wrap

Every size, count and offset of the model is a signed 64-bit word, and every operation on
words wraps. The lemmas here say when it does not: an exact result that lies in
`[-2^63, 2^63)` is the word's value (`Word.Fits`). With them the block arithmetic of an arena
moves to `Int`, where `omega` reasons about it.

The two facts about block numbers that the occupancy table relies on are proved here as well:
for a block `b ≥ 0`, `b >>> 3` is its table byte `b / 8` and `b &&& 7` its place `b % 8` in
that byte.
-/

set_option autoImplicit false

namespace BlockArena

namespace Word

/-- An integer that a signed word holds exactly. -/
def Fits (x : Int) : Prop := -2 ^ 63 ≤ x ∧ x < 2 ^ 63

@[simp] theorem maxInt_toInt : maxInt.toInt = 2 ^ 63 - 1 := rfl

theorem bmod_of_fits {x : Int} (h : Fits x) : x.bmod (2 ^ 64) = x := by
  obtain ⟨h1, h2⟩ := h
  apply Int.bmod_eq_of_le <;> omega

theorem toInt_add_of_fits {a b : Int64} (h : Fits (a.toInt + b.toInt)) :
    (a + b).toInt = a.toInt + b.toInt := by
  rw [Int64.toInt_add, bmod_of_fits h]

theorem toInt_sub_of_fits {a b : Int64} (h : Fits (a.toInt - b.toInt)) :
    (a - b).toInt = a.toInt - b.toInt := by
  rw [Int64.toInt_sub, bmod_of_fits h]

theorem toInt_mul_of_fits {a b : Int64} (h : Fits (a.toInt * b.toInt)) :
    (a * b).toInt = a.toInt * b.toInt := by
  rw [Int64.toInt_mul, bmod_of_fits h]

/-- Dividing a word that is not negative by a positive one truncates, which is `Int`'s
    division there. -/
theorem toInt_div_of_nonneg {a b : Int64} (ha : 0 ≤ a.toInt) (hb : 0 < b.toInt) :
    (a / b).toInt = a.toInt / b.toInt := by
  have hq : a.toInt / b.toInt ≤ a.toInt := Int.ediv_le_self _ ha
  have hq' : 0 ≤ a.toInt / b.toInt := Int.ediv_nonneg ha (by omega)
  have hlt := a.toInt_lt
  rw [Int64.toInt_div, Int.tdiv_eq_ediv_of_nonneg ha, bmod_of_fits ⟨by omega, by omega⟩]

theorem divCeil_toInt {a b : Int64} (ha : 0 ≤ a.toInt) (hb : 0 < b.toInt)
    (h : a.toInt + b.toInt - 1 ≤ maxInt.toInt) :
    (divCeil a b).toInt = (a.toInt + b.toInt - 1) / b.toInt := by
  rw [maxInt_toInt] at h
  -- `a + b` alone may reach `2^63` and wrap; only the sum less one is sure to fit
  have hpred : (a + b - 1).toInt = a.toInt + b.toInt - 1 := by
    rw [Int64.toInt_sub, Int64.toInt_add, Int.bmod_sub_bmod, Int64.toInt_one]
    exact bmod_of_fits ⟨by omega, by omega⟩
  unfold divCeil
  rw [toInt_div_of_nonneg (by omega) hb, hpred]

theorem shiftRight_three_toInt (x : Int64) : (x >>> 3).toInt = x.toInt / 8 := by
  have h : (x >>> 3).toBitVec = x.toBitVec.sshiftRight 3 := rfl
  rw [← Int64.toInt_toBitVec, h, BitVec.toInt_sshiftRight, Int64.toInt_toBitVec,
    Int.shiftRight_eq_div_pow]
  rfl

/-- The place of a block in its table byte: the low three bits of a word that is not
    negative are its remainder modulo eight. -/
theorem and_seven_toNatClampNeg {x : Int64} (hx : 0 ≤ x.toInt) :
    (x &&& 7).toNatClampNeg = x.toInt.toNat % 8 := by
  have h7 : (x &&& 7).toBitVec = x.toBitVec &&& 7#64 := rfl
  have hmsb : (x.toBitVec &&& 7#64).msb = false := by
    rw [BitVec.msb_and]
    simp only [show (7#64).msb = false by decide, Bool.and_false]
  have hx' : x.toBitVec.toNat = x.toInt.toNat := by
    rw [Int64.toNat_toBitVec_of_le (Int64.le_iff_toInt_le.2 (by simpa using hx))]
    rfl
  show (x &&& 7).toInt.toNat = _
  rw [← Int64.toInt_toBitVec, h7, BitVec.toInt_eq_toNat_of_msb hmsb, BitVec.toNat_and, hx']
  simp only [Int.toNat_natCast]
  exact Nat.and_two_pow_sub_one_eq_mod _ 3

end Word

namespace Arena

/-- The blocks a size needs, when `size + blockSize - 1` does not overflow: one block for no
    bytes, else the size divided by the block size, rounded up. -/
theorem blocksFor_toInt {a : Arena} {size : Int64} (hbs : 0 < a.blockSize.toInt)
    (h0 : 0 ≤ size.toInt) (h : size.toInt + a.blockSize.toInt - 1 ≤ Word.maxInt.toInt) :
    (a.blocksFor size).toInt = max 1 ((size.toInt + a.blockSize.toInt - 1) / a.blockSize.toInt) := by
  unfold blocksFor
  split
  · rename_i hz
    subst hz
    have hq : (Int64.toInt 0 + a.blockSize.toInt - 1) / a.blockSize.toInt = 0 :=
      Int.ediv_eq_zero_of_lt (by simp only [Int64.toInt_zero]; omega)
        (by simp only [Int64.toInt_zero]; omega)
    rw [hq]
    rfl
  · rename_i hz
    have hpos : 0 < size.toInt := by
      by_contra hle
      exact hz (Int64.toInt_inj.1 (by simp only [Int64.toInt_zero]; omega))
    rw [Word.divCeil_toInt h0 hbs h]
    have : 1 ≤ (size.toInt + a.blockSize.toInt - 1) / a.blockSize.toInt :=
      (Int.le_ediv_iff_mul_le hbs).2 (by omega)
    omega

theorem one_le_blocksFor {a : Arena} {size : Int64} (hbs : 0 < a.blockSize.toInt)
    (h0 : 0 ≤ size.toInt) (h : size.toInt + a.blockSize.toInt - 1 ≤ Word.maxInt.toInt) :
    1 ≤ (a.blocksFor size).toInt := by
  rw [blocksFor_toInt hbs h0 h]
  omega

theorem size_le_blocksFor_mul {a : Arena} {size : Int64} (hbs : 0 < a.blockSize.toInt)
    (h0 : 0 ≤ size.toInt) (h : size.toInt + a.blockSize.toInt - 1 ≤ Word.maxInt.toInt) :
    size.toInt ≤ (a.blocksFor size).toInt * a.blockSize.toInt := by
  rw [blocksFor_toInt hbs h0 h]
  have hq := Int.lt_ediv_add_one_mul_self (size.toInt + a.blockSize.toInt - 1) hbs
  have hmax : (size.toInt + a.blockSize.toInt - 1) / a.blockSize.toInt ≤
      max 1 ((size.toInt + a.blockSize.toInt - 1) / a.blockSize.toInt) := by omega
  have := Int.mul_le_mul_of_nonneg_right hmax (Int.le_of_lt hbs)
  rw [Int.add_mul, Int.one_mul] at hq
  omega

theorem blocksFor_le_of_le_mul {a : Arena} {size : Int64} {k : Int} (hbs : 0 < a.blockSize.toInt)
    (h0 : 0 ≤ size.toInt) (h : size.toInt + a.blockSize.toInt - 1 ≤ Word.maxInt.toInt)
    (hk : 1 ≤ k) (hle : size.toInt ≤ k * a.blockSize.toInt) :
    (a.blocksFor size).toInt ≤ k := by
  rw [blocksFor_toInt hbs h0 h]
  have hq : (size.toInt + a.blockSize.toInt - 1) / a.blockSize.toInt < k + 1 := by
    rw [Int.ediv_lt_iff_lt_mul hbs, Int.add_mul, Int.one_mul]
    omega
  omega

end Arena

end BlockArena
