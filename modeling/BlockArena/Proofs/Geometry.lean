import Mathlib.Tactic.Linarith
import BlockArena.Proofs.Table

/-! # The geometry of an arena

An arena's shape is fixed when it is created: `blockSize`, `blockCount`, the management blocks
and the length of the occupancy table. `Arena.Geometry` collects what the operations rely on
about that shape, with every product exact as an integer:

* the table of `managementBlocks * blockSize` bytes covers a bit for each block,
* the management blocks and the blocks after them fit in the buffer.

Creating an arena establishes it whenever the buffer really holds the bytes the arena needs,
computed without wrapping (`Arena.exactNeed`), which is what the caller of the constructor
promises: a buffer at least as long as the needed size. No operation on blocks changes the
shape, so `Geometry` only depends on the fields that `withBytes` leaves alone.

With it the address of block `s`, `(managementBlocks + s) * blockSize`, is exact for every
block, lies in the buffer, and reads back as `s` (`blockIndex_blockOffset`).
-/

set_option autoImplicit false

namespace BlockArena

namespace Arena

/-- The bytes an arena of `count` blocks of `blockSize` bytes needs, management blocks
    included, computed on integers. -/
def exactNeed (blockSize count : Int) : Int :=
  (((count + 7) / 8 + blockSize - 1) / blockSize + count) * blockSize

/-- What the block operations rely on about an arena's shape. -/
structure Geometry (a : Arena) : Prop where
  blockSize_pos : 0 < a.blockSize.toInt
  blockCount_pos : 0 < a.blockCount.toInt
  managementBlocks_nonneg : 0 ≤ a.managementBlocks.toInt
  /-- The table is the run of management blocks. -/
  table_eq : (a.tableLength : Int) = a.managementBlocks.toInt * a.blockSize.toInt
  /-- The table has a bit for every block. -/
  table_covers : a.blockCount.toInt ≤ 8 * a.tableLength
  /-- Management blocks and blocks fit in the buffer, without wrapping. -/
  fits : (a.managementBlocks.toInt + a.blockCount.toInt) * a.blockSize.toInt ≤ a.bufferSize.toInt
  bytes_size : (a.bytes.size : Int) = a.bufferSize.toInt
  live : a.released = false

namespace Geometry

variable {a : Arena} (g : a.Geometry)
include g

theorem blockCount_le_bufferSize : a.blockCount.toInt ≤ a.bufferSize.toInt := by
  have := g.fits
  have := g.managementBlocks_nonneg
  have := g.blockSize_pos
  have := g.blockCount_pos
  nlinarith

theorem table_le_size : a.tableLength ≤ a.bytes.size := by
  have := g.blockSize_pos
  have := g.blockCount_pos
  have h : a.managementBlocks.toInt * a.blockSize.toInt ≤
      (a.managementBlocks.toInt + a.blockCount.toInt) * a.blockSize.toInt := by nlinarith
  have := g.fits
  have := g.table_eq
  have := g.bytes_size
  omega

theorem table_lt : a.tableLength < 2 ^ 63 := by
  have := g.table_le_size
  have := g.bytes_size
  have := a.bufferSize.toInt_lt
  omega

theorem blockCount_lt : a.blockCount.toInt + 1 < 2 ^ 63 := by
  have hm : 1 ≤ a.managementBlocks.toInt := by
    have := g.table_covers
    have := g.blockCount_pos
    by_contra hm
    have hz : a.managementBlocks.toInt = 0 := by have := g.managementBlocks_nonneg; omega
    have : (a.tableLength : Int) = 0 := by rw [g.table_eq, hz, Int.zero_mul]
    omega
  have := g.fits
  have := a.bufferSize.toInt_lt
  have := g.blockSize_pos
  have := g.blockCount_pos
  nlinarith

theorem toInt_ofNat {t : Nat} (ht : (t : Int) ≤ a.blockCount.toInt) : (Int64.ofNat t).toInt = t :=
  Int64.toInt_ofNat_of_lt (by have := g.blockCount_lt; omega)

theorem blockOffset_toInt {s : Int64} (h0 : 0 ≤ s.toInt) (hs : s.toInt ≤ a.blockCount.toInt) :
    (a.blockOffset s).toInt = (a.managementBlocks.toInt + s.toInt) * a.blockSize.toInt := by
  have hbs := g.blockSize_pos
  have hm := g.managementBlocks_nonneg
  have hle : (a.managementBlocks.toInt + s.toInt) * a.blockSize.toInt ≤
      (a.managementBlocks.toInt + a.blockCount.toInt) * a.blockSize.toInt := by nlinarith
  have hnn : 0 ≤ (a.managementBlocks.toInt + s.toInt) * a.blockSize.toInt := by nlinarith
  have hself : a.managementBlocks.toInt + s.toInt ≤
      (a.managementBlocks.toInt + s.toInt) * a.blockSize.toInt := by nlinarith
  have := g.fits
  have := a.bufferSize.toInt_lt
  have hsum : (a.managementBlocks + s).toInt = a.managementBlocks.toInt + s.toInt :=
    Word.toInt_add_of_fits ⟨by omega, by omega⟩
  unfold blockOffset
  rw [Word.toInt_mul_of_fits] <;> rw [hsum]
  exact ⟨by omega, by omega⟩

theorem blockOffset_ofNat {t : Nat} (ht : (t : Int) ≤ a.blockCount.toInt) :
    (a.blockOffset (Int64.ofNat t)).toInt = (a.managementBlocks.toInt + t) * a.blockSize.toInt := by
  have htInt := g.toInt_ofNat ht
  rw [g.blockOffset_toInt (by omega) (by omega), htInt]

/-- A block's address reads back as the block. -/
theorem blockIndex_blockOffset {s : Int64} (h0 : 0 ≤ s.toInt) (hs : s.toInt ≤ a.blockCount.toInt) :
    a.blockIndex (a.blockOffset s) = s := by
  have hoff := g.blockOffset_toInt h0 hs
  have hbs := g.blockSize_pos
  have hm := g.managementBlocks_nonneg
  have hnn : 0 ≤ (a.blockOffset s).toInt := by rw [hoff]; nlinarith
  have hdiv : (a.blockOffset s / a.blockSize).toInt = a.managementBlocks.toInt + s.toInt := by
    rw [Word.toInt_div_of_nonneg hnn hbs, hoff, Int.mul_ediv_cancel _ (Int.ne_of_gt hbs)]
  apply Int64.toInt_inj.1
  unfold blockIndex
  rw [Word.toInt_sub_of_fits] <;> rw [hdiv]
  · omega
  · have := s.toInt_lt
    exact ⟨by omega, by omega⟩

theorem owns_blockOffset {s : Int64} (h0 : 0 ≤ s.toInt) (hs : s.toInt < a.blockCount.toInt) :
    a.owns (.offset (a.blockOffset s).toInt) = true := by
  have hoff := g.blockOffset_toInt h0 (Int.le_of_lt hs)
  have hbs := g.blockSize_pos
  have hm := g.managementBlocks_nonneg
  have hlt : (a.managementBlocks.toInt + s.toInt) * a.blockSize.toInt <
      (a.managementBlocks.toInt + a.blockCount.toInt) * a.blockSize.toInt := by nlinarith
  have hnn : 0 ≤ (a.managementBlocks.toInt + s.toInt) * a.blockSize.toInt := by nlinarith
  have := g.fits
  simp only [owns, g.live, Bool.not_false, Bool.true_and, Bool.and_eq_true, decide_eq_true_eq]
  omega

end Geometry

/-- The shape does not depend on the table's contents or the counters. -/
theorem Geometry.withBytes {a : Arena} (g : a.Geometry) (bytes : ByteArray)
    (hsize : bytes.size = a.bytes.size) (count used : Int64) :
    Geometry { a with bytes := bytes, allocationCount := count, usedBlocks := used } where
  blockSize_pos := g.blockSize_pos
  blockCount_pos := g.blockCount_pos
  managementBlocks_nonneg := g.managementBlocks_nonneg
  table_eq := g.table_eq
  table_covers := g.table_covers
  fits := g.fits
  bytes_size := by simp only [hsize]; exact g.bytes_size
  live := g.live

/-! ## A new arena -/

theorem blockSize_pos_of_isPow2Signed {bs : Int64} (h : Word.isPow2Signed bs = true) :
    0 < bs.toInt := by
  unfold Word.isPow2Signed at h
  simp only [Bool.and_eq_true, decide_eq_true_eq] at h
  exact Int64.lt_iff_toInt_lt.1 h.1

/-- The sizes `create` computes are exact when the buffer holds the needed bytes: the table
    is `⌈⌈count / 8⌉ / blockSize⌉` blocks, and blocks and table fit in the buffer. -/
theorem create_sizes {size bs n : Int64} (hbs : 0 < bs.toInt) (hn : 0 < n.toInt)
    (hneed : exactNeed bs.toInt n.toInt ≤ size.toInt) :
    (managementBlocksFor bs n).toInt = ((n.toInt + 7) / 8 + bs.toInt - 1) / bs.toInt ∧
      (neededBytesFor bs n).toInt = exactNeed bs.toInt n.toInt ∧
      (managementBlocksFor bs n * bs).toInt = (managementBlocksFor bs n).toInt * bs.toInt := by
  have hsize := size.toInt_lt
  -- name the exact quantities, and give `omega` the products it cannot form
  set nb := (n.toInt + 7) / 8 with hnb
  set m := (nb + bs.toInt - 1) / bs.toInt with hm
  have hnb1 : 1 ≤ nb := by omega
  have hm1 : 1 ≤ m := (Int.le_ediv_iff_mul_le hbs).2 (by omega)
  have hmb : nb ≤ m * bs.toInt := by
    have := Int.lt_ediv_add_one_mul_self (nb + bs.toInt - 1) hbs
    rw [← hm, Int.add_mul, Int.one_mul] at this
    omega
  have hneed' : (m + n.toInt) * bs.toInt ≤ size.toInt := hneed
  have hE : (m + n.toInt) * bs.toInt = m * bs.toInt + n.toInt * bs.toInt := Int.add_mul _ _ _
  have hnb' : bs.toInt ≤ n.toInt * bs.toInt := by nlinarith
  have hnn : n.toInt ≤ n.toInt * bs.toInt := by nlinarith
  have hself : m + n.toInt ≤ (m + n.toInt) * bs.toInt := by nlinarith
  have h8 : (8 : Int64).toInt = 8 := rfl
  have hbytes : (Word.divCeil n 8).toInt = nb := by
    rw [@Word.divCeil_toInt n 8 (by omega) (by rw [h8]; decide)
      (by rw [h8, Word.maxInt_toInt]; omega), h8]
    omega
  have hmgmt : (managementBlocksFor bs n).toInt = m := by
    unfold managementBlocksFor
    rw [Word.divCeil_toInt (by omega) hbs (by rw [hbytes, Word.maxInt_toInt]; omega), hbytes]
  have hmul : (managementBlocksFor bs n * bs).toInt = m * bs.toInt := by
    rw [Word.toInt_mul_of_fits] <;> rw [hmgmt]
    exact ⟨by nlinarith, by omega⟩
  refine ⟨hmgmt, ?_, by rw [hmul, hmgmt]⟩
  have hsum : (managementBlocksFor bs n + n).toInt = m + n.toInt := by
    rw [Word.toInt_add_of_fits] <;> rw [hmgmt]
    exact ⟨by omega, by omega⟩
  unfold neededBytesFor
  rw [Word.toInt_mul_of_fits] <;> rw [hsum]
  · rfl
  · exact ⟨by nlinarith, by omega⟩

theorem create_inv {size bs n : Int64} {align : UInt64} {a : Arena}
    (h : create true size align bs n = .ok a) :
    Word.isPow2Signed bs = true ∧ ¬n ≤ 0 ∧ ¬size < neededBytesFor bs n ∧
      ¬managementBlocksFor bs n * bs < 0 ∧
      a = { blockSize := bs, blockCount := n, managementBlocks := managementBlocksFor bs n,
            bufferSize := size, bufferAlign := align, bytes := Buffer.zeros size.toNatClampNeg,
            tableLength := (managementBlocksFor bs n * bs).toNatClampNeg } := by
  simp only [create] at h
  rw [if_neg (by simp)] at h
  by_cases hp : Word.isPow2Signed bs = true
  · rw [if_neg (by simpa using hp)] at h
    by_cases hn : n ≤ 0
    · rw [if_pos hn] at h
      cases h
    rw [if_neg hn] at h
    by_cases hb : size < neededBytesFor bs n
    · rw [if_pos hb] at h
      cases h
    rw [if_neg hb] at h
    by_cases hm : managementBlocksFor bs n * bs < 0
    · rw [if_pos hm] at h
      cases h
    rw [if_neg hm] at h
    cases h
    exact ⟨hp, hn, hb, hm, rfl⟩
  · rw [if_pos (by simpa using hp)] at h
    cases h

/-- An arena created over a buffer that holds the bytes it needs has its geometry, no
    allocations and an empty table. -/
theorem geometry_of_create {size bs n : Int64} {align : UInt64} {a : Arena}
    (h : create true size align bs n = .ok a) (hneed : exactNeed bs.toInt n.toInt ≤ size.toInt) :
    a.Geometry ∧ a.allocationCount = 0 ∧ a.usedBlocks = 0 ∧ ∀ b, a.usedBit b = false := by
  obtain ⟨hpow, hn, -, -, rfl⟩ := create_inv h
  have hbs : 0 < bs.toInt := blockSize_pos_of_isPow2Signed hpow
  have hn' : 0 < n.toInt := by
    have := mt Int64.le_iff_toInt_le.2 hn
    simp only [Int64.toInt_zero, not_le] at this
    exact this
  obtain ⟨hmgmt, -, hmul⟩ := create_sizes hbs hn' hneed
  have hm : 0 ≤ (managementBlocksFor bs n).toInt := by
    rw [hmgmt]
    exact Int.ediv_nonneg (by omega) (Int.le_of_lt hbs)
  have hnb : (n.toInt + 7) / 8 ≤ (managementBlocksFor bs n).toInt * bs.toInt := by
    have := Int.lt_ediv_add_one_mul_self ((n.toInt + 7) / 8 + bs.toInt - 1) hbs
    rw [hmgmt]
    rw [Int.add_mul, Int.one_mul] at this
    omega
  have htable : (((managementBlocksFor bs n * bs).toNatClampNeg : Nat) : Int) =
      (managementBlocksFor bs n).toInt * bs.toInt := by
    show ((managementBlocksFor bs n * bs).toInt.toNat : Int) = _
    rw [hmul, Int.toNat_of_nonneg (Int.mul_nonneg hm (Int.le_of_lt hbs))]
  have hfits : ((managementBlocksFor bs n).toInt + n.toInt) * bs.toInt ≤ size.toInt := by
    rw [hmgmt]
    exact hneed
  have hsize0 : 0 ≤ size.toInt := by
    have := Int.mul_nonneg (Int.add_nonneg hm (Int.le_of_lt hn')) (Int.le_of_lt hbs)
    omega
  refine ⟨⟨hbs, hn', hm, htable, ?_, hfits, ?_, rfl⟩, rfl, rfl, fun b => ?_⟩
  · simp only [htable]
    omega
  · show ((Buffer.zeros size.toNatClampNeg).size : Int) = size.toInt
    simp only [Buffer.zeros, ByteArray.size, Array.size_replicate]
    show (size.toInt.toNat : Int) = size.toInt
    omega
  · rw [usedBit_eq_testBit]
    show (Buffer.byteAt (Buffer.zeros _) (b / 8)).toNat.testBit _ = false
    unfold Buffer.byteAt Buffer.zeros
    split <;> simp [ByteArray.getElem_eq_getElem_data]

end Arena

end BlockArena
