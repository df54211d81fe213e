import BlockArena.Proofs.ElementResize

/-! # Checks that guard against overflow

Layouts and copy regions are checked on words that may wrap; this module says how far each check
can be trusted. The overflow test of a product is exact for words that are not negative
(`Word.mulOverflows_iff`). A layout passes its check exactly when its size is not negative, its
alignment a power of two and the two add up to at most `2^63` (`Layout.check_eq_ok_iff`). So an
array layout exists exactly when the count is not negative and the true product fits, and then
passes the check (`array_layouts_exact`). The region check accepts every region within the two
lengths (`Region.fits_of_within`) and, while neither end wraps, no other; such a region scales to
bytes exactly (`regions_checked_exactly`). A region whose source end wraps passes the check while
reading past the old run (`region_check_wraps`).
-/

set_option autoImplicit false

namespace BlockArena

namespace Word

theorem toInt64_toInt_of_lt {x : UInt64} (h : x.toNat < 2 ^ 63) : x.toInt64.toInt = x.toNat := by
  rw [← Int64.toInt_toBitVec, UInt64.toBitVec_toInt64, BitVec.toInt_eq_toNat_cond]
  simp only [UInt64.toNat_toBitVec]
  rw [if_pos (by omega)]

theorem toNat_sub_one {a : UInt64} (h : a.toNat ≠ 0) : (a - 1).toNat = a.toNat - 1 := by
  rw [UInt64.toNat_sub_of_le]
  · rfl
  · exact UInt64.le_iff_toNat_le.2 (by simp only [UInt64.toNat_one]; omega)

theorem isPow2_toNat {a : UInt64} (h : isPow2 a = true) : ∃ k, k < 64 ∧ a.toNat = 2 ^ k := by
  unfold isPow2 at h
  simp only [Bool.and_eq_true, bne_iff_ne, ne_eq, beq_iff_eq] at h
  obtain ⟨h0, hand⟩ := h
  have hpos : a.toNat ≠ 0 := fun hz => h0 (UInt64.toNat_inj.1 (by simpa using hz))
  -- the test clears the lowest set bit; nothing is left only for a single bit
  have hbits : a.toNat &&& (a.toNat - 1) = 0 := by
    rw [← toNat_sub_one hpos, ← UInt64.toNat_and, hand]
    rfl
  obtain ⟨k, hk⟩ := Nat.ne_zero_and_sub_one_eq_zero_iff_isPowerOfTwo.1 ⟨hpos, hbits⟩
  refine ⟨k, ?_, hk⟩
  have hlt := a.toNat_lt
  rw [hk] at hlt
  exact (Nat.pow_lt_pow_iff_right (by omega)).1 hlt

theorem toInt_mul_of_nonneg {a b : Int64} (ha : 0 ≤ a.toInt) (hb : 0 ≤ b.toInt)
    (h : a.toInt * b.toInt ≤ maxInt.toInt) : (a * b).toInt = a.toInt * b.toInt := by
  rw [maxInt_toInt] at h
  exact toInt_mul_of_fits ⟨by have := Int.mul_nonneg ha hb; omega, by omega⟩

/-- Two words that are not negative and whose true product fits pass the overflow test: the
    wrapped product is the true one, so it divides back and is not negative. -/
theorem mulOverflows_eq_false {a b : Int64} (ha : 0 ≤ a.toInt) (hb : 0 ≤ b.toInt)
    (h : a.toInt * b.toInt ≤ maxInt.toInt) : mulOverflows a b = false := by
  unfold mulOverflows
  split
  · rfl
  · rename_i hz
    have hb0 : b ≠ 0 := fun h0 => hz (by simp [h0])
    have hbpos : 0 < b.toInt := by
      have : b.toInt ≠ 0 := fun h0 => hb0 (Int64.toInt_inj.1 (by simpa using h0))
      omega
    have hp : (a * b).toInt = a.toInt * b.toInt := toInt_mul_of_nonneg ha hb h
    have hq : (a * b / b).toInt = a.toInt := by
      rw [toInt_div_of_nonneg (by rw [hp]; exact Int.mul_nonneg ha hb) hbpos, hp,
        Int.mul_ediv_cancel _ hbpos.ne']
    have hdiv : a * b / b = a := Int64.toInt_inj.1 hq
    have hneg : ¬ a * b < 0 := by
      rw [Int64.lt_iff_toInt_lt, hp, Int64.toInt_zero]
      exact Int.not_lt.2 (Int.mul_nonneg ha hb)
    simp [hdiv, hneg]

/-- The overflow test is exact on words that are not negative: it reports overflow exactly
    when the true product exceeds the largest word. -/
theorem mulOverflows_iff {a b : Int64} (ha : 0 ≤ a.toInt) (hb : 0 ≤ b.toInt) :
    mulOverflows a b = true ↔ maxInt.toInt < a.toInt * b.toInt := by
  constructor
  · intro h
    refine Int.not_le.1 fun hle => ?_
    rw [mulOverflows_eq_false ha hb hle] at h
    exact Bool.false_ne_true h
  · intro hlt
    -- a zero factor gives a zero product, which fits
    have ha' : 0 < a.toInt := by
      rcases Int.lt_or_eq_of_le ha with h | h
      · exact h
      · rw [← h, Int.zero_mul, maxInt_toInt] at hlt
        omega
    refine Bool.eq_true_of_not_eq_false fun hf => ?_
    have := mul_le_maxInt ha' hb hf
    omega

end Word

namespace Layout

/-- For a power-of-two alignment the largest size that rounds up to it is `2^63` less the
    alignment: the signed difference `maxInt - (align - 1)` does not wrap. -/
theorem maxSizeFor_toInt {a : UInt64} (h : Word.isPow2 a = true) :
    (maxSizeFor a).toInt = 2 ^ 63 - a.toNat := by
  obtain ⟨k, hk, ha⟩ := Word.isPow2_toNat h
  have hle : 2 ^ k ≤ 2 ^ 63 := Nat.pow_le_pow_right (by omega) (by omega)
  have hone : 1 ≤ 2 ^ k := Nat.one_le_two_pow
  have hconv : (a - 1).toInt64.toInt = a.toNat - 1 := by
    rw [Word.toInt64_toInt_of_lt (by rw [Word.toNat_sub_one (by omega)]; omega),
      Word.toNat_sub_one (by omega)]
    omega
  unfold maxSizeFor
  rw [Word.toInt_sub_of_fits (by rw [Word.maxInt_toInt, hconv]; constructor <;> omega),
    Word.maxInt_toInt, hconv]
  omega

/-- The layout check, read on integers: the size is not negative, the alignment is a power of
    two, and the size plus the alignment is at most `2^63`. -/
theorem check_eq_ok_iff (l : Layout) :
    l.check = .ok () ↔
      0 ≤ l.size.toInt ∧ Word.isPow2 l.align = true ∧ l.size.toInt + l.align.toNat ≤ 2 ^ 63 := by
  unfold check
  split_ifs with hneg hpow hmax
  · rw [Int64.lt_iff_toInt_lt, Int64.toInt_zero] at hneg
    simp only [false_iff, not_and]
    omega
  · simp only [false_iff, not_and]
    intro _ h
    simp [h] at hpow
  · have hp : Word.isPow2 l.align = true := by simpa using hpow
    rw [Int64.lt_iff_toInt_lt, maxSizeFor_toInt hp] at hmax
    simp only [false_iff, not_and]
    omega
  · have hp : Word.isPow2 l.align = true := by simpa using hpow
    rw [Int64.lt_iff_toInt_lt, maxSizeFor_toInt hp] at hmax
    rw [Int64.lt_iff_toInt_lt, Int64.toInt_zero] at hneg
    simp only [true_iff]
    exact ⟨by omega, hp, by omega⟩

theorem add_le_of_dvd {a x k : Nat} (hk : k < 64) (ha : a = 2 ^ k) (hdvd : a ∣ x)
    (hx : x < 2 ^ 63) : x + a ≤ 2 ^ 63 := by
  obtain ⟨q, rfl⟩ := hdvd
  by_cases hk63 : k ≤ 63
  · obtain ⟨m, hm⟩ : a ∣ 2 ^ 63 := ha ▸ Nat.pow_dvd_pow 2 hk63
    rw [hm] at hx ⊢
    have hq : q < m := Nat.lt_of_mul_lt_mul_left hx
    calc a * q + a = a * (q + 1) := by rw [Nat.mul_succ]
      _ ≤ a * m := Nat.mul_le_mul_left a hq
  · omega

/-- An array layout, read on integers: for an element size that is not negative, it exists
    exactly when the count is not negative and the true product fits a word, and is then the
    product with the element's alignment; otherwise it is refused with `arrayOverflows`. -/
theorem array_eq (elem : Layout) (count : Int64) (he : 0 ≤ elem.size.toInt) :
    Layout.array elem count =
      if 0 ≤ count.toInt ∧ count.toInt * elem.size.toInt ≤ Word.maxInt.toInt then
        .ok ⟨elem.size * count, elem.align⟩
      else .error (.arrayOverflows count elem.size) := by
  unfold Layout.array
  by_cases hc : 0 ≤ count.toInt
  · have hnot : ¬ count < 0 := by
      rw [Int64.lt_iff_toInt_lt, Int64.toInt_zero]
      omega
    have hov := Word.mulOverflows_iff he hc
    rw [Int.mul_comm] at hov
    by_cases hfit : count.toInt * elem.size.toInt ≤ Word.maxInt.toInt
    · have hf : Word.mulOverflows elem.size count = false :=
        Bool.eq_false_iff.2 fun ht => absurd (hov.1 ht) (Int.not_lt.2 hfit)
      rw [if_neg (by simp [hnot, hf]), if_pos ⟨hc, hfit⟩]
    · have ht : Word.mulOverflows elem.size count = true := hov.2 (Int.not_le.1 hfit)
      rw [if_pos (by simp [ht]), if_neg fun h => hfit h.2]
  · have hneg : count < 0 := by
      rw [Int64.lt_iff_toInt_lt, Int64.toInt_zero]
      omega
    rw [if_pos (by simp [hneg]), if_neg fun h => hc h.1]

theorem array_size_toInt {elem : Layout} {count : Int64} (he : 0 ≤ elem.size.toInt)
    (hc : 0 ≤ count.toInt) (hfit : count.toInt * elem.size.toInt ≤ Word.maxInt.toInt) :
    (elem.size * count).toInt = count.toInt * elem.size.toInt := by
  rw [Word.toInt_mul_of_nonneg he hc (by rw [Int.mul_comm]; exact hfit), Int.mul_comm]

/-- An array of elements whose power-of-two alignment divides their size passes the layout
    check whenever it exists. -/
theorem array_check {elem : Layout} {count : Int64} (he : 0 ≤ elem.size.toInt)
    (hpow : Word.isPow2 elem.align = true) (hdvd : (elem.align.toNat : Int) ∣ elem.size.toInt)
    (hc : 0 ≤ count.toInt) (hfit : count.toInt * elem.size.toInt ≤ Word.maxInt.toInt) :
    (⟨elem.size * count, elem.align⟩ : Layout).check = .ok () := by
  obtain ⟨k, hk, ha⟩ := Word.isPow2_toNat hpow
  have hsize := array_size_toInt he hc hfit
  have hprod : 0 ≤ count.toInt * elem.size.toInt := Int.mul_nonneg hc he
  rw [Word.maxInt_toInt] at hfit
  -- the array's size is a multiple of the alignment, as the element's is
  have hdvd' : elem.align.toNat ∣ (count.toInt * elem.size.toInt).natAbs :=
    Int.natCast_dvd.1 (Dvd.dvd.mul_left hdvd count.toInt)
  have habs : ((count.toInt * elem.size.toInt).natAbs : Int) = count.toInt * elem.size.toInt :=
    Int.natAbs_of_nonneg hprod
  have hroom := add_le_of_dvd hk ha hdvd' (by omega)
  refine (check_eq_ok_iff _).2 ⟨?_, hpow, ?_⟩ <;> simp only [hsize] <;> omega

end Layout

/-- Every element type has a size that is not negative and a power-of-two alignment that
    divides it. -/
theorem Elem.layout_aligned (e : Elem) :
    0 ≤ e.size.toInt ∧ Word.isPow2 e.align = true ∧ (e.align.toNat : Int) ∣ e.size.toInt := by
  have h := e.shaped
  simp only [Layout.isElem, Bool.and_eq_true, decide_eq_true_eq, beq_iff_eq] at h
  exact ⟨h.1.1, h.1.2, Int.dvd_of_emod_eq_zero h.2⟩

/-- The layout an aborted request for `count` elements reports: the array of them when it
    exists, and one element otherwise. -/
theorem Handle.failureLayout_eq (e : Elem) (count : Int64) :
    Handle.failureLayout e count =
      if 0 ≤ count.toInt ∧ count.toInt * e.size.toInt ≤ Word.maxInt.toInt then
        ⟨e.size * count, e.align⟩
      else e.layout := by
  unfold Handle.failureLayout
  rw [Layout.array_eq e.layout count (Elem.layout_aligned e).1,
    show e.layout.size = e.size from rfl]
  split_ifs <;> rfl

/-- Array layouts are exact. For an element layout of a size that is not negative and a
    power-of-two alignment dividing it, and for every count: the array layout exists exactly
    when the count is not negative and `count * size` fits a word as an integer; it is then of
    exactly that size, with the element's alignment, and passes the layout check; otherwise it is
    refused with `arrayOverflows`. The overflow test it rests on is exact for every two words
    that are not negative, and the layout an aborted request for `n` elements of a type reports is
    the array of them when that exists and one element's layout otherwise. -/
theorem array_layouts_exact (elem : Layout) (count : Int64) (hsize : 0 ≤ elem.size.toInt)
    (hpow : Word.isPow2 elem.align = true) (hdvd : (elem.align.toNat : Int) ∣ elem.size.toInt) :
    ((∃ l, Layout.array elem count = .ok l) ↔
        0 ≤ count.toInt ∧ count.toInt * elem.size.toInt ≤ Word.maxInt.toInt) ∧
      (∀ l, Layout.array elem count = .ok l →
        l.size.toInt = count.toInt * elem.size.toInt ∧ l.align = elem.align ∧ l.check = .ok ()) ∧
      (∀ f, Layout.array elem count = .error f → f = .arrayOverflows count elem.size) ∧
      (∀ x y : Int64, 0 ≤ x.toInt → 0 ≤ y.toInt →
        (Word.mulOverflows x y = true ↔ Word.maxInt.toInt < x.toInt * y.toInt)) ∧
      (∀ (e : Elem) (n : Int64), Handle.failureLayout e n =
        if 0 ≤ n.toInt ∧ n.toInt * e.size.toInt ≤ Word.maxInt.toInt then ⟨e.size * n, e.align⟩
        else e.layout) := by
  have harray := Layout.array_eq elem count hsize
  refine ⟨?_, ?_, ?_, fun _ _ hx hy => Word.mulOverflows_iff hx hy, Handle.failureLayout_eq⟩
  · rw [harray]
    split_ifs with h
    · exact ⟨fun _ => h, fun _ => ⟨_, rfl⟩⟩
    · simp only [exists_false, false_iff]
      exact h
  · intro l hl
    rw [harray] at hl
    split_ifs at hl with h
    cases hl
    exact ⟨Layout.array_size_toInt hsize h.1 h.2, rfl, Layout.array_check hsize hpow hdvd h.1 h.2⟩
  · intro f hf
    rw [harray] at hf
    split_ifs at hf
    cases hf
    rfl

/-- Three eight-byte words: the array of them has 24 bytes, aligned to eight. -/
theorem three_words_array_exact :
    0 ≤ (8 : Int64).toInt ∧ Word.isPow2 8 = true ∧ (((8 : UInt64).toNat : Int) ∣ (8 : Int64).toInt) ∧
      ((∃ l, Layout.array ⟨8, 8⟩ 3 = .ok l) ↔
        0 ≤ (3 : Int64).toInt ∧ (3 : Int64).toInt * (8 : Int64).toInt ≤ Word.maxInt.toInt) ∧
      (∀ l, Layout.array ⟨8, 8⟩ 3 = .ok l →
        l.size.toInt = (3 : Int64).toInt * (8 : Int64).toInt ∧ l.align = 8 ∧ l.check = .ok ()) ∧
      (∀ f, Layout.array ⟨8, 8⟩ 3 = .error f → f = .arrayOverflows 3 8) ∧
      (∀ x y : Int64, 0 ≤ x.toInt → 0 ≤ y.toInt →
        (Word.mulOverflows x y = true ↔ Word.maxInt.toInt < x.toInt * y.toInt)) ∧
      (∀ (e : Elem) (n : Int64), Handle.failureLayout e n =
        if 0 ≤ n.toInt ∧ n.toInt * e.size.toInt ≤ Word.maxInt.toInt then ⟨e.size * n, e.align⟩
        else e.layout) :=
  ⟨by decide, by decide, by decide, array_layouts_exact ⟨8, 8⟩ 3 (by decide) (by decide) (by decide)⟩

/-! ## Copy regions -/

namespace Region

/-- The region check passes every region that lies within the two lengths: ends that do not
    exceed a length that is a word do not wrap. -/
theorem fits_of_within {r : Region} {oldLen newLen : Int64}
    (h : r.Within oldLen.toInt newLen.toInt) : r.fits oldLen newLen = .ok () := by
  obtain ⟨h₁, h₂, h₃, h₄, h₅⟩ := h
  have hold := oldLen.toInt_lt
  have hnew := newLen.toInt_lt
  have hsrc : (r.src + r.size).toInt = r.src.toInt + r.size.toInt :=
    Word.toInt_add_of_fits ⟨by omega, by omega⟩
  have hdst : (r.dst + r.size).toInt = r.dst.toInt + r.size.toInt :=
    Word.toInt_add_of_fits ⟨by omega, by omega⟩
  unfold fits
  rw [if_neg, if_neg, if_neg]
  · rw [Int64.lt_iff_toInt_lt, hdst]
    omega
  · rw [Int64.lt_iff_toInt_lt, hsrc]
    omega
  · simp only [Bool.or_eq_true, decide_eq_true_eq, Int64.lt_iff_toInt_lt, Int64.toInt_zero]
    omega

theorem scale_zero (r : Region) : r.scale 0 = ⟨0, 0, 0⟩ := by
  simp [scale]

end Region

/-- Copy regions are checked exactly while their ends do not wrap. For every region whose
    source end `src + size` and destination end `dst + size` do not exceed the largest word, and
    for all lengths: the region check passes exactly when no field is negative, the region reads
    inside the old length and writes inside the new one, as integers. A region that passes,
    between lengths whose sizes in `e`-byte units fit a word, scales to bytes with every field
    exact, and the scaled region passes the check between those byte sizes. -/
theorem regions_checked_exactly (r : Region) (oldLen newLen e : Int64)
    (hsrc : r.src.toInt + r.size.toInt ≤ Word.maxInt.toInt)
    (hdst : r.dst.toInt + r.size.toInt ≤ Word.maxInt.toInt) :
    (r.fits oldLen newLen = .ok () ↔ r.Within oldLen.toInt newLen.toInt) ∧
      (r.fits oldLen newLen = .ok () → 0 ≤ e.toInt →
        oldLen.toInt * e.toInt ≤ Word.maxInt.toInt → newLen.toInt * e.toInt ≤ Word.maxInt.toInt →
        Region.Scaled r (r.scale e) e.toInt ∧ (r.scale e).fits (oldLen * e) (newLen * e) = .ok ()) := by
  have hiff : r.fits oldLen newLen = .ok () ↔ r.Within oldLen.toInt newLen.toInt :=
    ⟨fun h => Region.within_of_fits h hsrc hdst, Region.fits_of_within⟩
  refine ⟨hiff, fun hfits he hold hnew => ?_⟩
  have hw := hiff.1 hfits
  obtain ⟨h₁, h₂, h₃, h₄, h₅⟩ := hw
  rcases Int.lt_or_eq_of_le he with hpos | hzero
  · -- a positive unit: the lengths in bytes are exact, and the region scales within them
    have hold' : e.toInt * oldLen.toInt ≤ Word.maxInt.toInt := by rw [Int.mul_comm]; exact hold
    have hnew' : e.toInt * newLen.toInt ≤ Word.maxInt.toInt := by rw [Int.mul_comm]; exact hnew
    obtain ⟨hscaled, hwithin⟩ := Region.Within.scaled ⟨h₁, h₂, h₃, h₄, h₅⟩ hpos hold' hnew'
    have hob : (oldLen * e).toInt = e.toInt * oldLen.toInt := by
      rw [Word.toInt_mul_of_nonneg (by omega) he hold, Int.mul_comm]
    have hnb : (newLen * e).toInt = e.toInt * newLen.toInt := by
      rw [Word.toInt_mul_of_nonneg (by omega) he hnew, Int.mul_comm]
    refine ⟨hscaled, Region.fits_of_within ?_⟩
    rw [hob, hnb]
    exact hwithin
  · -- no unit at all: the region in bytes is empty, at offset zero
    have he0 : e = 0 := Int64.toInt_inj.1 (by rw [← hzero]; rfl)
    subst he0
    rw [Region.scale_zero]
    refine ⟨⟨?_, ?_, ?_⟩, Region.fits_of_within ?_⟩ <;>
      simp [Region.Within, Int64.toInt_zero, Int64.mul_zero]

/-- Two units read from offset one of a run of three and written at the start of a run of two,
    measured in units of four bytes. -/
theorem short_region_checked_exactly :
    (1 : Int64).toInt + (2 : Int64).toInt ≤ Word.maxInt.toInt ∧
      (0 : Int64).toInt + (2 : Int64).toInt ≤ Word.maxInt.toInt ∧
      ((Region.fits ⟨1, 0, 2⟩ 3 2 = .ok () ↔
          Region.Within ⟨1, 0, 2⟩ (3 : Int64).toInt (2 : Int64).toInt) ∧
        (Region.fits ⟨1, 0, 2⟩ 3 2 = .ok () → 0 ≤ (4 : Int64).toInt →
          (3 : Int64).toInt * (4 : Int64).toInt ≤ Word.maxInt.toInt →
          (2 : Int64).toInt * (4 : Int64).toInt ≤ Word.maxInt.toInt →
          Region.Scaled ⟨1, 0, 2⟩ (Region.scale ⟨1, 0, 2⟩ 4) (4 : Int64).toInt ∧
            (Region.scale ⟨1, 0, 2⟩ 4).fits (3 * 4) (2 * 4) = .ok ())) :=
  ⟨by decide, by decide, regions_checked_exactly ⟨1, 0, 2⟩ 3 2 4 (by decide) (by decide)⟩

/-- The region check adds offsets as words: one unit read at the largest offset passes the check
    against an empty old run, its end wrapping below zero, though it reads past that run. -/
theorem region_check_wraps :
    Region.fits ⟨Word.maxInt, 0, 1⟩ 0 1 = .ok () ∧
      ¬ Region.Within ⟨Word.maxInt, 0, 1⟩ (0 : Int64).toInt (1 : Int64).toInt := by
  refine ⟨rfl, ?_⟩
  rintro ⟨-, -, -, hread, -⟩
  exact absurd hread (by decide)

end BlockArena
