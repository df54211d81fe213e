import Mathlib
import BlockArena.Buffer

/-! # Writing into a buffer

`Buffer.write b off data` keeps the size of `b` and replaces the bytes `[off, off + data.size)`
that lie inside it by those of `data` (`byteAt_write`); every other byte keeps its value. The
occupancy table of an arena lies below every block, so a write into a block never reaches it
(`byteAt_write_of_lt`).
-/

set_option autoImplicit false

namespace BlockArena

namespace Buffer

@[simp] theorem size_write (b : ByteArray) (off : Nat) (data : ByteArray) :
    (write b off data).size = b.size := by
  unfold write
  split
  · simp only [← ByteArray.size_data, ByteArray.copySlice, Array.size_append, Array.size_extract]
    omega
  · rfl

/-- The byte at `k` after a write: the byte of `data` it receives, or the old one. -/
theorem byteAt_write (b : ByteArray) (off : Nat) (data : ByteArray) (k : Nat) :
    byteAt (write b off data) k =
      if off ≤ k ∧ k < off + data.size ∧ k < b.size then byteAt data (k - off)
      else byteAt b k := by
  unfold write
  split
  · rename_i h
    have hmin : min off b.data.size = off := by simp only [ByteArray.size_data]; omega
    -- the written buffer is three slices: `b` before `off`, `data`, and `b` after the copy
    simp only [byteAt, ByteArray.copySlice, ByteArray.getElem_eq_getElem_data,
      ← ByteArray.size_data, Array.size_append, Array.size_extract, Array.getElem_append,
      Array.getElem_extract, Nat.zero_add, Nat.sub_zero, hmin]
    split_ifs <;> grind
  · rename_i h
    rw [if_neg (by omega)]

/-- A write leaves every byte before it alone. -/
theorem byteAt_write_of_lt (b : ByteArray) {off k : Nat} (data : ByteArray) (hk : k < off) :
    byteAt (write b off data) k = byteAt b k := by
  rw [byteAt_write, if_neg (by omega)]

end Buffer

end BlockArena
