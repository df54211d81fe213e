import BlockArena.Proofs.Lengths
import BlockArena.Proofs.Isolation.Addresses

/-! # Whole elements of whole blocks

An arena keeps no record of how large its allocations are: a free names a layout, and the arena
gives back the blocks that layout asks for. A run of elements remembers less than it was
granted: the whole elements that fit in the bytes of its blocks. This module proves that this
is always enough. Rounding a size of whole elements up to whole blocks, then taking the whole
elements that those blocks hold, asks for as many blocks again (`Arena.blocks_of_whole_elems`),
for every element size, also one that does not divide the block size or exceeds it. On words the
same holds as long as the blocks end a block below the largest word
(`Arena.blocksFor_whole_elems`), which a power-of-two block size guarantees
(`Arena.blocksFor_room`) and so does every run an arena tracks (`Tracks.run_room`).

It also gathers what the handle layer needs of an address storage: the size of an array layout,
the byte region a resize in a form keeps for a region of elements, and the run an allocation,
cleared or not, grants (`AddressStore.grant_cases`).
-/

set_option autoImplicit false

namespace BlockArena

/-- An array layout that exists counts no fewer than zero elements, and its size is the
    element's size times the count. -/
theorem Layout.array_eq_ok {elem l : Layout} {count : Int64} (h : Layout.array elem count = .ok l) :
    0 ≤ count.toInt ∧ l = ⟨elem.size * count, elem.align⟩ := by
  unfold Layout.array at h
  split at h
  · cases h
  · rename_i hc
    cases h
    refine ⟨?_, rfl⟩
    have hnot : ¬count < 0 := fun hlt => hc (by simp [hlt])
    rw [Int64.lt_iff_toInt_lt, Int64.toInt_zero] at hnot
    omega

/-! ## Resizing a run of elements -/

/-- What a caller promises of a resize of a run of `oldLen` elements to `newLen` in a form: the
    region it keeps reads inside the old run and writes inside the new one, or, keeping the
    common prefix, a grow asks for no fewer elements and a shrink for no more. -/
def ResizeForm.Fits (form : ResizeForm) (oldLen newLen : Int64) : Prop :=
  match form.region with
  | some r => r.Within oldLen.toInt newLen.toInt
  | none => if form.grow then oldLen.toInt ≤ newLen.toInt else newLen.toInt ≤ oldLen.toInt

/-- A region of elements that fits between two runs of `e`-byte elements keeps, counted in bytes,
    a region that fits between their arrays: no field of it wraps. -/
theorem ResizeForm.Fits.kept_within {form : ResizeForm} {e oldLen newLen : Int64}
    (hfits : form.Fits oldLen newLen) (he : 0 < e.toInt) (hold : 0 ≤ oldLen.toInt)
    (hnew : 0 ≤ newLen.toInt) (hmax : e.toInt * oldLen.toInt ≤ Word.maxInt.toInt)
    (hmax' : e.toInt * newLen.toInt ≤ Word.maxInt.toInt) (align : UInt64) :
    ({ form with region := form.region.map (fun r : Region => r.scale e) }.kept ⟨e * oldLen, align⟩
      ⟨e * newLen, align⟩).Within (e.toInt * oldLen.toInt) (e.toInt * newLen.toInt) := by
  rw [Word.maxInt_toInt] at hmax hmax'
  -- a count of elements no larger than one of the runs has an exact size in bytes
  have hexact : ∀ v : Int64, 0 ≤ v.toInt → v.toInt * e.toInt ≤ 2 ^ 63 - 1 →
      (v * e).toInt = v.toInt * e.toInt := fun v h0 h1 =>
    Word.toInt_mul_of_fits ⟨by have := Int.mul_nonneg h0 he.le; omega, by omega⟩
  have hold' := hexact oldLen hold (by rw [Int.mul_comm]; exact hmax)
  have hnew' := hexact newLen hnew (by rw [Int.mul_comm]; exact hmax')
  rw [Int64.mul_comm, Int.mul_comm] at hold' hnew'
  unfold ResizeForm.Fits at hfits
  unfold ResizeForm.kept
  cases hreg : form.region with
  | none =>
    rw [hreg] at hfits
    simp only [Option.map_none, Option.getD_none, Region.prefixOf, Region.Within,
      Int64.toInt_zero, Int.zero_add, le_refl, true_and]
    have h₀ := Int.mul_nonneg he.le hold
    have h₁ := Int.mul_nonneg he.le hnew
    cases hg : form.grow with
    | false =>
      simp only [hg, Bool.false_eq_true, ite_false] at hfits ⊢
      have := Int.mul_le_mul_of_nonneg_left hfits he.le
      rw [hnew']
      omega
    | true =>
      simp only [hg, ite_true] at hfits ⊢
      have := Int.mul_le_mul_of_nonneg_left hfits he.le
      rw [hold']
      omega
  | some r =>
    rw [hreg] at hfits
    obtain ⟨hsrc, hdst, hsize, hread, hwrite⟩ := hfits
    have hr := Int.mul_le_mul_of_nonneg_right hread he.le
    have hw := Int.mul_le_mul_of_nonneg_right hwrite he.le
    rw [Int.add_mul] at hr hw
    have hs₀ := Int.mul_nonneg hsrc he.le
    have hd₀ := Int.mul_nonneg hdst he.le
    have hz₀ := Int.mul_nonneg hsize he.le
    rw [Int.mul_comm oldLen.toInt] at hr
    rw [Int.mul_comm newLen.toInt] at hw
    simp only [Option.map_some, Option.getD_some, Region.Within]
    unfold Region.scale
    rw [hexact r.src hsrc (by omega), hexact r.dst hdst (by omega), hexact r.size hsize (by omega)]
    omega

theorem ResizeForm.Fits.kept_within_run {form : ResizeForm} {e oldLen newLen : Int64} {room : Int}
    (hfits : form.Fits oldLen newLen) (he : 0 < e.toInt) (hold : 0 ≤ oldLen.toInt)
    (hnew : 0 ≤ newLen.toInt) (hmax : e.toInt * oldLen.toInt ≤ Word.maxInt.toInt)
    (hmax' : e.toInt * newLen.toInt ≤ Word.maxInt.toInt) (hroom : e.toInt * oldLen.toInt ≤ room)
    (align : UInt64) :
    ({ form with region := form.region.map (fun r : Region => r.scale e) }.kept ⟨e * oldLen, align⟩
      ⟨e * newLen, align⟩).Within room (e * newLen).toInt := by
  obtain ⟨h₁, h₂, h₃, h₄, h₅⟩ := hfits.kept_within he hold hnew hmax hmax' align
  have hbytes : (e * newLen).toInt = e.toInt * newLen.toInt := by
    rw [Word.maxInt_toInt] at hmax'
    exact Word.toInt_mul_of_fits ⟨by have := Int.mul_nonneg he.le hnew; omega, by omega⟩
  exact ⟨h₁, h₂, h₃, by omega, by rw [hbytes]; exact h₅⟩

namespace Arena

/-- Rounding a multiple of `e` up to whole blocks of `B`, then taking the whole elements of `e`
    that those blocks hold, asks for as many blocks again. -/
theorem blocks_of_whole_elems {B e m : Int} (hB : 0 < B) (he : 0 < e) (hm : 0 ≤ m)
    (hdvd : e ∣ m) :
    max 1 ((max 1 ((m + B - 1) / B) * B / e * e + B - 1) / B) = max 1 ((m + B - 1) / B) := by
  obtain ⟨n, rfl⟩ := hdvd
  have hn : 0 ≤ n := by
    by_contra hneg
    have : e * n < 0 := Int.mul_neg_of_pos_of_neg he (by omega)
    omega
  set q := (e * n + B - 1) / B with hq
  have hq₁ : q * B ≤ e * n + B - 1 := Int.ediv_mul_le _ hB.ne'
  have hq₂ : e * n + B - 1 < q * B + B := by
    have := Int.lt_ediv_add_one_mul_self (e * n + B - 1) hB
    rw [Int.add_mul, Int.one_mul] at this
    exact this
  set k := max 1 q with hk
  set L := k * B / e with hL
  have hL₁ : L * e ≤ k * B := Int.ediv_mul_le _ he.ne'
  rcases Int.lt_or_eq_of_le hn with hpos | hzero
  · -- some bytes: `k` blocks are the fewest that hold them, and the whole elements still need `k`
    have hqpos : 1 ≤ q := (Int.le_ediv_iff_mul_le hB).2 (by
      have : e * 1 ≤ e * n := Int.mul_le_mul_of_nonneg_left (by omega) he.le
      omega)
    have hkq : k = q := max_eq_right hqpos
    have hnL : n ≤ L := (Int.le_ediv_iff_mul_le he).2 (by
      rw [hkq, Int.mul_comm n e]
      omega)
    have hen : e * n ≤ L * e := by
      rw [Int.mul_comm e n]
      exact Int.mul_le_mul_of_nonneg_right hnL he.le
    have h₁ : k ≤ (L * e + B - 1) / B := (Int.le_ediv_iff_mul_le hB).2 (by rw [hkq]; omega)
    have h₂ : (L * e + B - 1) / B < k + 1 := (Int.ediv_lt_iff_lt_mul hB).2 (by
      rw [Int.add_mul, Int.one_mul]
      omega)
    have hk₁ : 1 ≤ k := le_max_left 1 q
    omega
  · -- no bytes: one block, and whatever it holds fits in one block
    subst hzero
    have hq0 : q = 0 := Int.ediv_eq_zero_of_lt (by simp only [Int.mul_zero]; omega)
      (by simp only [Int.mul_zero]; omega)
    have hk1 : k = 1 := by rw [hk, hq0]; rfl
    have hL0 : 0 ≤ L * e := Int.mul_nonneg (Int.ediv_nonneg (by rw [hk1]; omega) he.le) he.le
    have h₂ : (L * e + B - 1) / B < 2 := (Int.ediv_lt_iff_lt_mul hB).2 (by rw [hk1] at hL₁; omega)
    omega

variable {a : Arena}

/-- The bytes of the blocks a size asks for, and the whole elements of `e` in them, are exact
    words when those blocks end a block below the largest word. -/
theorem blockBytes_toInt (hbs : 0 < a.blockSize.toInt) {m e : Int64} (h0 : 0 ≤ m.toInt)
    (hm : m.toInt + a.blockSize.toInt - 1 ≤ Word.maxInt.toInt) (he : 0 < e.toInt)
    (hroom : (a.blocksFor m).toInt * a.blockSize.toInt + a.blockSize.toInt - 1 ≤
      Word.maxInt.toInt) :
    0 < (a.blocksFor m).toInt * a.blockSize.toInt ∧
      (a.blocksFor m * a.blockSize).toInt = (a.blocksFor m).toInt * a.blockSize.toInt ∧
      (a.blocksFor m * a.blockSize / e).toInt =
        (a.blocksFor m).toInt * a.blockSize.toInt / e.toInt := by
  have hk1 := one_le_blocksFor hbs h0 hm
  rw [Word.maxInt_toInt] at hroom
  have hpos : 0 < (a.blocksFor m).toInt * a.blockSize.toInt := Int.mul_pos (by omega) hbs
  have hkB : (a.blocksFor m * a.blockSize).toInt = (a.blocksFor m).toInt * a.blockSize.toInt :=
    Word.toInt_mul_of_fits ⟨by omega, by omega⟩
  refine ⟨hpos, hkB, ?_⟩
  rw [Word.toInt_div_of_nonneg (by omega) he, hkB]

/-- Rounding up and back on words: a size `m` that is a multiple of `e` and rounds up to whole
    blocks without overflow, with one block less a byte to spare above those blocks, asks for as
    many blocks as the whole elements of `e` those blocks hold. -/
theorem blocksFor_whole_elems (hbs : 0 < a.blockSize.toInt) {m e : Int64} (h0 : 0 ≤ m.toInt)
    (hm : m.toInt + a.blockSize.toInt - 1 ≤ Word.maxInt.toInt) (he : 0 < e.toInt)
    (hdvd : e.toInt ∣ m.toInt)
    (hroom : (a.blocksFor m).toInt * a.blockSize.toInt + a.blockSize.toInt - 1 ≤
      Word.maxInt.toInt) :
    (a.blocksFor (a.blocksFor m * a.blockSize / e * e)).toInt = (a.blocksFor m).toInt := by
  obtain ⟨hpos, -, hL⟩ := blockBytes_toInt hbs h0 hm he hroom
  rw [Word.maxInt_toInt] at hroom
  -- the whole elements' bytes lie between none and the blocks' bytes, so they are exact too
  have hL₁ : (a.blocksFor m).toInt * a.blockSize.toInt / e.toInt * e.toInt ≤
      (a.blocksFor m).toInt * a.blockSize.toInt := Int.ediv_mul_le _ he.ne'
  have hL₀ : 0 ≤ (a.blocksFor m).toInt * a.blockSize.toInt / e.toInt * e.toInt :=
    Int.mul_nonneg (Int.ediv_nonneg hpos.le he.le) he.le
  have hLe : (a.blocksFor m * a.blockSize / e * e).toInt =
      (a.blocksFor m).toInt * a.blockSize.toInt / e.toInt * e.toInt := by
    rw [Word.toInt_mul_of_fits (by rw [hL]; exact ⟨by omega, by omega⟩), hL]
  rw [blocksFor_toInt hbs (by rw [hLe]; exact hL₀) (by rw [hLe, Word.maxInt_toInt]; omega), hLe,
    blocksFor_toInt hbs h0 hm]
  exact blocks_of_whole_elems hbs he (by omega) hdvd

/-- With a power-of-two block size, the whole blocks of a size that rounds up without overflow
    end at least a block below `2^63`: the block size divides `2^63`. -/
theorem blocksFor_room (hpow : ∃ j : Nat, a.blockSize.toInt = 2 ^ j) {m : Int64}
    (h0 : 0 ≤ m.toInt) (hm : m.toInt + a.blockSize.toInt - 1 ≤ Word.maxInt.toInt) :
    (a.blocksFor m).toInt * a.blockSize.toInt + a.blockSize.toInt - 1 ≤ Word.maxInt.toInt := by
  obtain ⟨j, hj⟩ := hpow
  have hbs : 0 < a.blockSize.toInt := by rw [hj]; exact pow_pos (by decide) j
  have hlt := a.blockSize.toInt_lt
  have hj63 : j ≤ 63 := by
    by_contra hgt
    have : (2 : Int) ^ 63 ≤ 2 ^ j := pow_le_pow_right₀ (by decide) (by omega)
    omega
  have hc : (2 : Int) ^ 63 = 2 ^ (63 - j) * a.blockSize.toInt := by
    rw [hj, ← pow_add, Nat.sub_add_cancel hj63]
  have hk := blocksFor_toInt hbs h0 hm
  have hq := Int.ediv_mul_le (m.toInt + a.blockSize.toInt - 1) hbs.ne'
  rw [Word.maxInt_toInt] at hm ⊢
  -- the whole blocks lie below `2^63`, so at least one block below it
  have hkB : (a.blocksFor m).toInt * a.blockSize.toInt < 2 ^ 63 := by
    rw [hk]
    rcases le_total 1 ((m.toInt + a.blockSize.toInt - 1) / a.blockSize.toInt) with h1 | h1
    · rw [max_eq_right h1]
      omega
    · rw [max_eq_left h1, Int.one_mul]
      omega
  have hkc : (a.blocksFor m).toInt < 2 ^ (63 - j) := by
    by_contra hge
    have := Int.mul_le_mul_of_nonneg_right (not_lt.1 hge) hbs.le
    omega
  have hnext := Int.mul_le_mul_of_nonneg_right (show (a.blocksFor m).toInt + 1 ≤ 2 ^ (63 - j)
    by omega) hbs.le
  rw [Int.add_mul, Int.one_mul] at hnext
  omega

/-- An array of `count` elements of `e` that exists, whose bytes round up to whole blocks
    without overflow, is one the arena may be asked for, and its size is exact. -/
theorem sized_array {a : Arena} {e : Elem} {count : Int64} {l : Layout}
    (h : Layout.array e.layout count = .ok l)
    (hfit : e.size.toInt * count.toInt + a.blockSize.toInt - 1 ≤ Word.maxInt.toInt)
    (hbs : 0 < a.blockSize.toInt) :
    l = ⟨e.size * count, e.align⟩ ∧ l.size.toInt = e.size.toInt * count.toInt ∧ a.Sized l := by
  obtain ⟨hc, rfl⟩ := Layout.array_eq_ok h
  have hprod : 0 ≤ e.size.toInt * count.toInt := Int.mul_nonneg (Elem.size_nonneg e) hc
  rw [Word.maxInt_toInt] at hfit
  have hexact : (e.size * count).toInt = e.size.toInt * count.toInt :=
    Word.toInt_mul_of_fits ⟨by omega, by omega⟩
  refine ⟨rfl, hexact, ?_, ?_⟩
  · show 0 ≤ (e.size * count).toInt
    rw [hexact]
    exact hprod
  · show (e.size * count).toInt + a.blockSize.toInt - 1 ≤ Word.maxInt.toInt
    rw [hexact, Word.maxInt_toInt]
    exact hfit

end Arena

/-! ## Runs an arena tracks -/

namespace Tracks

variable {a : Arena} {live : List Extent} {x : Extent}

/-- A tracked run ends a block or more below the largest word: the buffer holds its blocks and
    is no larger than the process heap serves. -/
theorem run_room (ht : Tracks a live) (hx : x ∈ live) :
    (x.count : Int) * a.blockSize.toInt + a.blockSize.toInt - 1 ≤ Word.maxInt.toInt := by
  have g := ht.geometry
  obtain ⟨-, hlt, -⟩ := ht.inside x hx
  have hfits := g.fits
  have hbound := ht.bounded
  have hm := g.managementBlocks_nonneg
  have hmul := Int.mul_le_mul_of_nonneg_right (show (x.count : Int) + 1 ≤
    a.managementBlocks.toInt + a.blockCount.toInt by omega) g.blockSize_pos.le
  rw [Int.add_mul, Int.one_mul] at hmul
  have hlimit : Arena.heapLimit.toInt = 1099511627776 := rfl
  rw [Word.maxInt_toInt]
  omega

/-- The whole elements of `e` in the bytes of a tracked run granted for `m` bytes of whole
    elements lie inside the run, and ask for all its blocks again. -/
theorem whole_elems (ht : Tracks a live) (hx : x ∈ live) {m e : Int64} (h0 : 0 ≤ m.toInt)
    (hm : m.toInt + a.blockSize.toInt - 1 ≤ Word.maxInt.toInt) (he : 0 < e.toInt)
    (hdvd : e.toInt ∣ m.toInt) (hcount : (x.count : Int) = (a.blocksFor m).toInt) :
    0 ≤ (a.blocksFor m * a.blockSize / e).toInt ∧
      (a.blocksFor m * a.blockSize / e).toInt * e.toInt ≤ x.count * a.blockSize.toInt ∧
      (a.blocksFor (a.blocksFor m * a.blockSize / e * e)).toInt = x.count := by
  have hbs := ht.geometry.blockSize_pos
  have hroom := ht.run_room hx
  rw [hcount] at hroom
  obtain ⟨hpos, -, hL⟩ := Arena.blockBytes_toInt hbs h0 hm he hroom
  refine ⟨?_, ?_, ?_⟩
  · rw [hL]
    exact Int.ediv_nonneg hpos.le he.le
  · rw [hL, hcount]
    exact Int.ediv_mul_le _ he.ne'
  · rw [hcount]
    exact Arena.blocksFor_whole_elems hbs h0 hm he hdvd hroom

theorem isEmpty_of_nil (ht : Tracks a []) : a.isEmpty = true := by
  have h := ht.allocationCount_eq
  rw [List.length_nil, Nat.cast_zero] at h
  have h0 : a.allocationCount = 0 := Int64.toInt_inj.1 (by rw [h]; rfl)
  simp only [Arena.isEmpty, h0, beq_self_eq_true]

theorem grant_bytes (ht : Tracks a live) (hx : x ∈ live) {m : Int64}
    (hcount : (x.count : Int) = (a.blocksFor m).toInt) :
    (a.blocksFor m * a.blockSize).toInt = x.count * a.blockSize.toInt := by
  have hroom := ht.run_room hx
  have hbs := ht.geometry.blockSize_pos
  have hpos := Int.mul_nonneg (Int.natCast_nonneg x.count) hbs.le
  rw [Word.maxInt_toInt] at hroom
  rw [hcount] at hroom hpos ⊢
  exact Word.toInt_mul_of_fits ⟨by omega, by omega⟩

theorem blocksFor_bytes (ht : Tracks a live) (hx : x ∈ live) {n : Int64}
    (hn : n.toInt = x.count * a.blockSize.toInt) : (a.blocksFor n).toInt = x.count := by
  have hbs := ht.geometry.blockSize_pos
  have hroom := ht.run_room hx
  have hpos := (ht.inside x hx).1
  have hn0 : 0 ≤ n.toInt := by
    rw [hn]
    exact Int.mul_nonneg (Int.natCast_nonneg _) hbs.le
  rw [Arena.blocksFor_toInt hbs hn0 (by rw [hn]; omega), hn]
  -- `c` whole blocks and less than one more block round up to `c`
  have hq : (↑x.count * a.blockSize.toInt + a.blockSize.toInt - 1) / a.blockSize.toInt =
      x.count := by
    rw [show (x.count : Int) * a.blockSize.toInt + a.blockSize.toInt - 1 =
      a.blockSize.toInt - 1 + x.count * a.blockSize.toInt by omega,
      Int.add_mul_ediv_right _ _ hbs.ne', Int.ediv_eq_zero_of_lt (by omega) (by omega),
      Int.zero_add]
  rw [hq]
  omega

end Tracks

/-! ## What an allocation grants -/

namespace AddressStore

variable {s : AddressStore} {live : List Extent}

/-- An allocation, cleared or not, of a layout that rounds up to whole blocks refuses, having
    only counted, or answers the address of a fresh run of the blocks the layout asks for, with
    their bytes, which the arena then tracks besides the live runs. -/
theorem grant_cases (ht : Tracks s.arena live) {l : Layout} (hl : s.arena.Sized l)
    (zeroed : Bool) :
    (∃ f, (if zeroed then Storage.allocateZeroed l else Storage.allocate l :
        Act AddressStore (Addr × Int64)).run s = .error f { s with epoch := s.epoch + 1 }) ∨
    ∃ (y : Extent) (s' : AddressStore),
      (if zeroed then Storage.allocateZeroed l else Storage.allocate l :
        Act AddressStore (Addr × Int64)).run s =
        .ok (.offset (y.addr s.arena).toInt, s.arena.blocksFor l.size * s.arena.blockSize) s' ∧
      s.arena.SameBlocks s'.arena ∧ Tracks s'.arena (y :: live) ∧
      (y.count : Int) = (s.arena.blocksFor l.size).toInt := by
  cases zeroed with
  | false =>
    rcases allocate_cases ht hl with ⟨f, hf⟩ | ⟨y, n, a', hrun, hsame, ht', -, -, rfl, hcount, -⟩
    · exact .inl ⟨f, hf⟩
    · exact .inr ⟨y, _, hrun, hsame, ht', hcount⟩
  | true =>
    rcases allocateZeroed_cases ht hl with
      ⟨f, hf⟩ | ⟨y, n, s', hrun, hsame, ht', rfl, hcount, -⟩
    · exact .inl ⟨f, hf⟩
    · exact .inr ⟨y, s', hrun, hsame, ht', hcount⟩

end AddressStore

end BlockArena
