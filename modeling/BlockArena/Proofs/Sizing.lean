import BlockArena.Proofs.Store.Calls

/-! # Sizing an arena

An arena of `count` blocks of `blockSize` bytes needs
`N = (⌈⌈count / 8⌉ / blockSize⌉ + count) * blockSize` bytes (`Arena.exactNeed`), table included,
which the constructors compute on wrapping words. When `N` fits a signed word the computation is
exact (`Arena.neededBytesFor_exact`), `create` refuses a buffer exactly when it is shorter than
`N`, by handing back `bufferTooSmall` (`Arena.create_ok_iff`, `Arena.create_error`), and every
arena the constructors build holds its table and its blocks (`Arena.Holds`).

When `N` does not fit, the size wraps, to a negative number that any buffer passes or to zero;
`wrapped_sizes_slip_through` gives one of each.
-/

set_option autoImplicit false

namespace BlockArena

namespace Arena

/-- The buffer holds the arena's table and its blocks: the table is the run of management
    blocks and has a bit for every block, and block `i` lies in the buffer after the table. -/
structure Holds (a : Arena) : Prop where
  table_eq : (a.tableLength : Int) = a.managementBlocks.toInt * a.blockSize.toInt
  table_covers : a.blockCount.toInt ≤ 8 * a.tableLength
  block_within : ∀ i : Int, 0 ≤ i → i < a.blockCount.toInt →
    (a.tableLength : Int) ≤ (a.managementBlocks.toInt + i) * a.blockSize.toInt ∧
      (a.managementBlocks.toInt + i + 1) * a.blockSize.toInt ≤ a.bufferSize.toInt

theorem Geometry.holds {a : Arena} (g : a.Geometry) : a.Holds where
  table_eq := g.table_eq
  table_covers := g.table_covers
  block_within i hi hin := by
    have hbs := g.blockSize_pos
    have hm := g.managementBlocks_nonneg
    have hfits := g.fits
    have hlo : a.managementBlocks.toInt * a.blockSize.toInt ≤
        (a.managementBlocks.toInt + i) * a.blockSize.toInt :=
      Int.mul_le_mul_of_nonneg_right (by omega) hbs.le
    have hhi : (a.managementBlocks.toInt + i + 1) * a.blockSize.toInt ≤
        (a.managementBlocks.toInt + a.blockCount.toInt) * a.blockSize.toInt :=
      Int.mul_le_mul_of_nonneg_right (by omega) hbs.le
    rw [g.table_eq]
    exact ⟨hlo, by omega⟩

variable {bs n : Int64}

/-- When the needed size fits a word, the word computation gives it exactly. -/
theorem neededBytesFor_exact (hbs : 0 < bs.toInt) (hn : 0 < n.toInt)
    (hfit : exactNeed bs.toInt n.toInt ≤ Word.maxInt.toInt) :
    (neededBytesFor bs n).toInt = exactNeed bs.toInt n.toInt :=
  (@create_sizes Word.maxInt bs n hbs hn hfit).2.1

theorem count_pos_of_toInt {n : Int64} (hn : 0 < n.toInt) : ¬n ≤ 0 := by
  rw [Int64.le_iff_toInt_le, Int64.toInt_zero]
  omega

theorem create_of_long (hpow : Word.isPow2Signed bs = true) (hn : 0 < n.toInt) {size : Int64}
    (align : UInt64) (hlong : exactNeed bs.toInt n.toInt ≤ size.toInt) :
    ∃ a, create true size align bs n = .ok a := by
  have hbs := blockSize_pos_of_isPow2Signed hpow
  obtain ⟨hmgmt, hneed, hmul⟩ := create_sizes hbs hn hlong
  have hge : ¬size < neededBytesFor bs n := by
    rw [Int64.lt_iff_toInt_lt]
    omega
  -- the table length is a product of two words that are not negative
  have hm : 0 ≤ (managementBlocksFor bs n).toInt := by
    rw [hmgmt]
    exact Int.ediv_nonneg (by omega) hbs.le
  have htable : ¬managementBlocksFor bs n * bs < 0 := by
    rw [Int64.lt_iff_toInt_lt, hmul, Int64.toInt_zero]
    exact Int.not_lt.2 (Int.mul_nonneg hm hbs.le)
  simp only [create, Bool.not_true, Bool.false_eq_true, if_false, hpow, Bool.not_true,
    count_pos_of_toInt hn, hge, htable]
  exact ⟨_, rfl⟩

section Fitting

variable (hpow : Word.isPow2Signed bs = true) (hn : 0 < n.toInt)
  (hfit : exactNeed bs.toInt n.toInt ≤ Word.maxInt.toInt)
include hpow hn hfit

theorem create_of_short {size : Int64} {align : UInt64}
    (hshort : size.toInt < exactNeed bs.toInt n.toInt) :
    create true size align bs n = .error (.bufferTooSmall size (neededBytesFor bs n)) := by
  have hneed := neededBytesFor_exact (blockSize_pos_of_isPow2Signed hpow) hn hfit
  have hlt : size < neededBytesFor bs n := Int64.lt_iff_toInt_lt.2 (by omega)
  simp only [create, Bool.not_true, Bool.false_eq_true, if_false, hpow, Bool.not_true,
    count_pos_of_toInt hn, hlt, if_true]

/-- A buffer is refused exactly when it is shorter than the needed size. -/
theorem create_ok_iff (size : Int64) (align : UInt64) :
    (∃ a, create true size align bs n = .ok a) ↔ exactNeed bs.toInt n.toInt ≤ size.toInt := by
  constructor
  · rintro ⟨a, ha⟩
    by_contra hshort
    rw [create_of_short hpow hn hfit (Int.lt_of_not_ge hshort)] at ha
    cases ha
  · exact create_of_long hpow hn align

/-- A refusal is the fault of a short buffer, which is handed back and does not abort. -/
theorem create_error {size : Int64} {align : UInt64} {f : Fault}
    (h : create true size align bs n = .error f) :
    f = .bufferTooSmall size (neededBytesFor bs n) ∧ f.aborts = false := by
  by_cases hshort : size.toInt < exactNeed bs.toInt n.toInt
  · rw [create_of_short hpow hn hfit hshort] at h
    cases h
    exact ⟨rfl, rfl⟩
  · obtain ⟨a, ha⟩ := create_of_long hpow hn align (Int.not_lt.1 hshort)
    rw [ha] at h
    cases h

/-- An arena that `create` builds holds its table and its blocks: the buffer holds the needed
    size, or `create` would have refused it. -/
theorem holds_of_create {size : Int64} {align : UInt64} {a : Arena}
    (h : create true size align bs n = .ok a) : a.Holds :=
  (geometry_of_create h ((create_ok_iff hpow hn hfit size align).1 ⟨a, h⟩)).1.holds

theorem make_needed {align : UInt64} {l : Layout}
    (h : Layout.make (neededBytesFor bs n) align = .ok l) :
    l.size.toInt = exactNeed bs.toInt n.toInt := by
  unfold Layout.make at h
  simp only at h
  cases hc : (⟨neededBytesFor bs n, align⟩ : Layout).check with
  | error f =>
    rw [hc] at h
    cases h
  | ok u =>
    rw [hc] at h
    cases h
    exact neededBytesFor_exact (blockSize_pos_of_isPow2Signed hpow) hn hfit

/-- An arena on the heap has a buffer of exactly the needed size, and holds its table and
    blocks in it. -/
theorem createOnHeap_holds {a : Arena} (h : createOnHeap bs n = .ok a) :
    a.bufferSize.toInt = exactNeed bs.toInt n.toInt ∧ a.Holds := by
  unfold createOnHeap at h
  rw [if_neg (by simp [hpow]), if_neg (count_pos_of_toInt hn)] at h
  split at h
  · cases h
  rename_i l hl
  split at h
  · cases h
  have hsize := make_needed hpow hn hfit hl
  obtain ⟨-, -, -, -, rfl⟩ := create_inv h
  exact ⟨hsize, (geometry_of_create h (by rw [hsize])).1.holds⟩

end Fitting

end Arena

namespace BlockStore

/-- A block storage built from a parent, for a block size and count whose needed size fits a
    word, has an arena of exactly that size, which holds its table and blocks. -/
theorem create_holds {parent : Parent} {bs n : Int64} {flags : Int32} {s : BlockStore}
    (hpow : Word.isPow2Signed bs = true) (hn : 0 < n.toInt)
    (hfit : Arena.exactNeed bs.toInt n.toInt ≤ Word.maxInt.toInt)
    (hcreate : BlockStore.create parent bs n flags = .ok s) :
    s.arena.bufferSize.toInt = Arena.exactNeed bs.toInt n.toInt ∧ s.arena.Holds := by
  have hbs := Arena.blockSize_pos_of_isPow2Signed hpow
  have hb : bs ≠ 0 := fun h => by rw [h, Int64.toInt_zero] at hbs; omega
  have hc : n ≠ 0 := fun h => by rw [h, Int64.toInt_zero] at hn; omega
  obtain ⟨l, a, hl, -, ha, rfl⟩ := create_arena hcreate
  rw [if_neg hb, if_neg hc] at hl ha
  have hsize := Arena.make_needed hpow hn hfit hl
  obtain ⟨-, -, -, -, hshape⟩ := Arena.create_inv ha
  exact ⟨by rw [hshape]; exact hsize, (Arena.geometry_of_create ha (by rw [hsize])).1.holds⟩

end BlockStore

/-- Sizing is exact whenever the needed size fits a signed word. For a power-of-two block size
    and a positive count: the word computation of the needed size is exactly
    `N = (⌈⌈count / 8⌉ / blockSize⌉ + count) * blockSize`; `create` over a buffer refuses exactly
    the buffers shorter than `N`, and refuses them as too small without aborting; and every arena
    that `create`, `createOnHeap` or `BlockStore.create` builds holds its table, with a bit for
    every block, and every block inside its buffer, the last two over exactly `N` bytes. -/
theorem arena_sizing_exact (bs n size : Int64) (align : UInt64)
    (hpow : Word.isPow2Signed bs = true) (hn : 0 < n.toInt)
    (hfit : Arena.exactNeed bs.toInt n.toInt ≤ Word.maxInt.toInt) :
    (Arena.neededBytesFor bs n).toInt = Arena.exactNeed bs.toInt n.toInt ∧
      ((∃ a, Arena.create true size align bs n = .ok a) ↔
        Arena.exactNeed bs.toInt n.toInt ≤ size.toInt) ∧
      (∀ f, Arena.create true size align bs n = .error f →
        f = .bufferTooSmall size (Arena.neededBytesFor bs n) ∧ f.aborts = false) ∧
      (∀ a, Arena.create true size align bs n = .ok a → a.Holds) ∧
      (∀ a, Arena.createOnHeap bs n = .ok a →
        a.bufferSize.toInt = Arena.exactNeed bs.toInt n.toInt ∧ a.Holds) ∧
      (∀ (parent : Parent) (flags : Int32) (s : BlockStore),
        BlockStore.create parent bs n flags = .ok s →
        s.arena.bufferSize.toInt = Arena.exactNeed bs.toInt n.toInt ∧ s.arena.Holds) := by
  have hbs := Arena.blockSize_pos_of_isPow2Signed hpow
  exact ⟨Arena.neededBytesFor_exact hbs hn hfit, Arena.create_ok_iff hpow hn hfit size align,
    fun f hf => Arena.create_error hpow hn hfit hf,
    fun a ha => Arena.holds_of_create hpow hn hfit ha,
    fun a ha => Arena.createOnHeap_holds hpow hn hfit ha,
    fun parent flags s hs => BlockStore.create_holds hpow hn hfit hs⟩

/-- Eight blocks of eight bytes need one block of table before them, seventy-two bytes in all,
    and a buffer of exactly that size is taken. -/
theorem eight_blocks_fit_exactly :
    Word.isPow2Signed 8 = true ∧ 0 < (8 : Int64).toInt ∧
      Arena.exactNeed 8 8 ≤ Word.maxInt.toInt ∧ Arena.exactNeed 8 8 = 72 ∧
      ∃ a, Arena.create true 72 8 8 8 = .ok a := by
  have hsized := arena_sizing_exact 8 8 72 8 (by decide) (by decide) (by decide)
  exact ⟨by decide, by decide, by decide, by decide, hsized.2.1.2 (by decide)⟩

/-- Two constructions that a word-sized needed size would refuse. Two-byte blocks, `2^63 - 1`
    of them, need more than `2^64` bytes; the wrapped size is negative, so a 64-byte buffer
    passes, and taking the table of negative length aborts instead of refusing. A block storage
    of `2^63 - 4` blocks of `2^62` bytes needs more than `2^125` bytes; the wrapped size is zero,
    and the storage is built over an empty buffer. -/
theorem wrapped_sizes_slip_through :
    Word.maxInt.toInt < Arena.exactNeed 2 9223372036854775807 ∧
      Arena.create true 64 8 2 9223372036854775807 = .error .runOutOfRange ∧
      Fault.runOutOfRange.aborts = true ∧
      Word.maxInt.toInt < Arena.exactNeed 4611686018427387904 9223372036854775804 ∧
      ∃ s, BlockStore.create (.pinned false false) 4611686018427387904 9223372036854775804 0 =
        .ok s ∧
        s.arena.bufferSize = 0 := by
  refine ⟨by decide, rfl, rfl, by decide, _, rfl, rfl⟩

end BlockArena
