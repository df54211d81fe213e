import BlockArena.Proofs.OverflowChecks

/-! # Rounding up to an alignment

`Word.alignUp v a` adds `a - 1` to `v` and clears the bits below `a`, both on wrapping words.
For a power-of-two alignment this is exact modulo `2^64`, so the shift it applies,
`alignUp v a - v` taken on words, is always `a - 1 - (v + a - 1) mod a`: it lies in `[0, a - 1]`
for every value, even one whose sum wraps or that is negative (`Word.alignUp_sub_toInt`). That
is the padding bound that serving an aligned address from an over-sized buffer relies on.

When `v + a - 1` fits in a signed word, nothing wraps at all, and the result is the least
multiple of `a` at or above `v` (`Word.alignUp_isLeast`). A layout that passes its check leaves
exactly that room, so rounding its size up to its alignment is exact
(`validated_layouts_round_up_safely`).
-/

set_option autoImplicit false

namespace BlockArena

namespace Word

theorem toNat_and_not_mask (x m : BitVec 64) {k : Nat} (hm : m.toNat = 2 ^ k - 1) :
    (x &&& ~~~m).toNat = x.toNat / 2 ^ k * 2 ^ k := by
  apply Nat.eq_of_testBit_eq
  intro i
  rw [Nat.testBit_mul_two_pow, Nat.testBit_div_two_pow, BitVec.testBit_toNat, BitVec.getLsbD_and,
    BitVec.getLsbD_not, ← BitVec.testBit_toNat m, hm, Nat.testBit_two_pow_sub_one,
    ← BitVec.testBit_toNat]
  by_cases hki : k ≤ i
  · rw [Nat.sub_add_cancel hki]
    by_cases hi : i < 64
    · simp [hki, hi, Nat.not_lt.2 hki]
    · -- above the word every bit is clear on both sides
      have : x.toNat.testBit i = false :=
        Nat.testBit_lt_two_pow (lt_of_lt_of_le x.isLt (Nat.pow_le_pow_right (by omega) (by omega)))
      simp [this]
  · simp [hki, Nat.lt_of_not_le hki]

/-- The shift that rounding applies, on the unsigned view of the words: `a - 1` less the
    remainder of the wrapped sum `v + a - 1`. -/
theorem alignUp_sub_toNat (v : Int64) {a : UInt64} {k : Nat} (ha : a.toNat = 2 ^ k)
    (hk : k < 64) :
    (alignUp v a - v).toBitVec.toNat =
      a.toNat - 1 - (v.toBitVec.toNat + a.toNat - 1) % 18446744073709551616 % a.toNat := by
  have hA : 1 ≤ a.toNat := ha ▸ Nat.one_le_two_pow
  have hA' : a.toNat ≤ 2 ^ 63 := ha ▸ Nat.pow_le_pow_right (by omega) (by omega)
  set x : BitVec 64 := v.toBitVec + a.toBitVec - 1 with hx
  set m : BitVec 64 := a.toBitVec - 1 with hm
  have hmNat : m.toNat = 2 ^ k - 1 := by
    rw [hm, BitVec.toNat_sub_of_le] <;> simp [BitVec.le_def, ha, Nat.one_le_two_pow]
  have hxNat : x.toNat = (v.toBitVec.toNat + a.toNat - 1) % 18446744073709551616 := by
    have h1 : (1 : BitVec 64).toNat = 1 := rfl
    rw [hx, BitVec.toNat_sub, BitVec.toNat_add, h1, show a.toBitVec.toNat = a.toNat from rfl]
    omega
  -- the cleared value and the remainder add up to the sum
  have hsplit := Nat.div_add_mod x.toNat (2 ^ k)
  have hrem : x.toNat % 2 ^ k < 2 ^ k := Nat.mod_lt _ Nat.one_le_two_pow
  have hval : (alignUp v a - v).toBitVec = (x &&& ~~~m) - v.toBitVec := by
    rw [alignUp]
    simp only [Int64.toBitVec_sub, Int64.toBitVec_and, Int64.toBitVec_add, UInt64.toBitVec_toInt64,
      UInt64.toBitVec_not, UInt64.toBitVec_sub, UInt64.toBitVec_one, Int64.toBitVec_one, hx, hm]
    rfl
  rw [hval, BitVec.toNat_sub, toNat_and_not_mask x m hmNat, ← hxNat, ha]
  have hv := v.toBitVec.isLt
  rw [Nat.mul_comm] at hsplit
  omega

/-- Rounding moves a value by `a - 1 - (v + a - 1) mod a`, for every value and every
    power-of-two alignment: the wrapping of the sum and of the shift cancel out. -/
theorem alignUp_sub_toInt (v : Int64) {a : UInt64} (ha : isPow2 a = true) :
    (alignUp v a - v).toInt = a.toNat - 1 - (v.toInt + a.toNat - 1) % a.toNat := by
  obtain ⟨k, hk, hak⟩ := isPow2_toNat ha
  have hA : 1 ≤ a.toNat := hak ▸ Nat.one_le_two_pow
  have hA' : a.toNat ≤ 2 ^ 63 := hak ▸ Nat.pow_le_pow_right (by omega) (by omega)
  have hnat := alignUp_sub_toNat v hak hk
  -- the alignment divides `2^64`, so the sum's remainder is the same with or without wrapping
  have hdvd : (a.toNat : Int) ∣ 18446744073709551616 := by
    rw [hak]
    exact_mod_cast Nat.pow_dvd_pow 2 (by omega : k ≤ 64)
  have hbits : (v.toBitVec.toNat : Int) % 18446744073709551616 = v.toInt % 18446744073709551616 := by
    rw [← Int64.toInt_toBitVec, BitVec.toInt_eq_toNat_cond]
    split <;> omega
  have hmod : (((v.toBitVec.toNat + a.toNat - 1) % 18446744073709551616 % a.toNat : Nat) : Int) =
      (v.toInt + a.toNat - 1) % a.toNat := by
    obtain ⟨B, hB⟩ := hdvd
    have hcast : ((v.toBitVec.toNat + a.toNat - 1 : Nat) : Int) =
        v.toBitVec.toNat + a.toNat - 1 := by omega
    push_cast
    rw [Int.emod_emod_of_dvd _ ⟨B, hB⟩, hcast, ← Int64.toInt_toBitVec v, BitVec.toInt_eq_toNat_cond]
    split
    · rfl
    · -- a negative word is its unsigned value less `2^64`, a multiple of the alignment
      have : (v.toBitVec.toNat : Int) - (2 ^ 64 : Nat) + a.toNat - 1 =
          v.toBitVec.toNat + a.toNat - 1 + a.toNat * (-B) := by
        push_cast
        rw [hB]
        ring
      rw [this, Int.add_mul_emod_self_left]
  have hrem : (v.toBitVec.toNat + a.toNat - 1) % 18446744073709551616 % a.toNat < a.toNat :=
    Nat.mod_lt _ (by omega)
  rw [← Int64.toInt_toBitVec (alignUp v a - v), BitVec.toInt_eq_toNat_cond, if_pos (by omega), hnat]
  omega

theorem alignUp_sub_bounds (v : Int64) {a : UInt64} (ha : isPow2 a = true) :
    0 ≤ (alignUp v a - v).toInt ∧ (alignUp v a - v).toInt ≤ a.toNat - 1 := by
  obtain ⟨k, -, hak⟩ := isPow2_toNat ha
  have hA : (0 : Int) < a.toNat := by rw [hak]; exact_mod_cast Nat.two_pow_pos k
  have h0 := Int.emod_nonneg (v.toInt + a.toNat - 1) hA.ne'
  have h1 := Int.emod_lt_of_pos (v.toInt + a.toNat - 1) hA
  rw [alignUp_sub_toInt v ha]
  omega

/-- While `v + a - 1` fits in a signed word, rounding wraps nowhere: the result is `v` moved
    by its shift, `v + a - 1` less its remainder. -/
theorem alignUp_toInt_of_fits (v : Int64) {a : UInt64} (ha : isPow2 a = true)
    (hfit : v.toInt + a.toNat - 1 ≤ maxInt.toInt) :
    (alignUp v a).toInt = v.toInt + a.toNat - 1 - (v.toInt + a.toNat - 1) % a.toNat := by
  obtain ⟨h0, h1⟩ := alignUp_sub_bounds v ha
  have hsum : alignUp v a = v + (alignUp v a - v) := by
    rw [Int64.add_comm, Int64.sub_add_cancel]
  have hlow := Int64.le_toInt v
  rw [maxInt_toInt] at hfit
  rw [hsum, toInt_add_of_fits ⟨by omega, by omega⟩, alignUp_sub_toInt v ha]
  omega

/-- While `v + a - 1` fits in a signed word, rounding gives the least multiple of `a` at or
    above `v`. Any other such multiple is a whole `a` further up, and the result is less than
    `a` above `v`. -/
theorem alignUp_isLeast (v : Int64) {a : UInt64} (ha : isPow2 a = true)
    (hfit : v.toInt + a.toNat - 1 ≤ maxInt.toInt) :
    IsLeast {m : Int | (a.toNat : Int) ∣ m ∧ v.toInt ≤ m} (alignUp v a).toInt := by
  obtain ⟨k, -, hak⟩ := isPow2_toNat ha
  have hA : (0 : Int) < a.toNat := by rw [hak]; exact_mod_cast Nat.two_pow_pos k
  have hval := alignUp_toInt_of_fits v ha hfit
  set s := v.toInt + a.toNat - 1 with hs
  have h0 := Int.emod_nonneg s hA.ne'
  have h1 := Int.emod_lt_of_pos s hA
  have hdvd : (a.toNat : Int) ∣ (alignUp v a).toInt :=
    ⟨s / a.toNat, by rw [hval, Int.emod_def]; ring⟩
  refine ⟨⟨hdvd, by omega⟩, ?_⟩
  rintro m ⟨hdm, hm⟩
  by_contra hlt
  have hgap := Int.le_of_dvd (by omega) (Int.dvd_sub hdvd hdm)
  omega

end Word

/-- Rounding is safe on validated layouts. A layout that passes its check has its size rounded
    up to the least multiple of its alignment at or above it, which is no larger than the
    largest word. And for every value and every power-of-two alignment the word difference
    `alignUp v a - v`, the padding that an aligned start inside a buffer needs, lies in
    `[0, a - 1]`. -/
theorem validated_layouts_round_up_safely :
    (∀ l : Layout, l.check = .ok () →
      IsLeast {m : Int | (l.align.toNat : Int) ∣ m ∧ l.size.toInt ≤ m}
          (Word.alignUp l.size l.align).toInt ∧
        (Word.alignUp l.size l.align).toInt ≤ Word.maxInt.toInt) ∧
    (∀ (v : Int64) (a : UInt64), Word.isPow2 a = true →
      0 ≤ (Word.alignUp v a - v).toInt ∧ (Word.alignUp v a - v).toInt ≤ a.toNat - 1) := by
  refine ⟨fun l hl => ?_, fun v a ha => Word.alignUp_sub_bounds v ha⟩
  obtain ⟨-, hpow, hroom⟩ := (Layout.check_eq_ok_iff l).1 hl
  -- the check leaves room for `align - 1` above the size
  have hfit : l.size.toInt + l.align.toNat - 1 ≤ Word.maxInt.toInt := by
    rw [Word.maxInt_toInt]
    omega
  exact ⟨Word.alignUp_isLeast l.size hpow hfit, Int64.toInt_le _⟩

/-- At the top of the range: size `2^62` with alignment `2^62` passes the check and rounds to
    itself; and the value `maxInt` rounded to `2^63`, whose sum wraps, still moves by less than
    the alignment. -/
theorem rounding_at_the_top :
    Layout.check ⟨4611686018427387904, 4611686018427387904⟩ = .ok () ∧
      (IsLeast {m : Int | ((4611686018427387904 : UInt64).toNat : Int) ∣ m ∧
          (4611686018427387904 : Int64).toInt ≤ m}
          (Word.alignUp 4611686018427387904 4611686018427387904).toInt ∧
        (Word.alignUp 4611686018427387904 4611686018427387904).toInt ≤ Word.maxInt.toInt) ∧
      Word.isPow2 9223372036854775808 = true ∧
      (0 ≤ (Word.alignUp Word.maxInt 9223372036854775808 - Word.maxInt).toInt ∧
        (Word.alignUp Word.maxInt 9223372036854775808 - Word.maxInt).toInt ≤
          (9223372036854775808 : UInt64).toNat - 1) :=
  ⟨rfl, validated_layouts_round_up_safely.1 ⟨4611686018427387904, 4611686018427387904⟩ rfl, rfl,
    validated_layouts_round_up_safely.2 Word.maxInt 9223372036854775808 rfl⟩

end BlockArena
