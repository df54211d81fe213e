import BlockArena.Memory
import BlockArena.Proofs.Buffer

/-! # What a write to memory leaves alone

Every change a storage makes to its bytes is a write of a run of bytes (`Space.put`), a clear
(`Space.fill0`), or a checked move or clear (`Memory.move`, `Memory.clear`) that ends in one of
them. None of them changes the size of the buffer, and each leaves every byte of the buffer
outside the run it writes as it was (`Space.byteAt_put`, `Space.byteAt_fill0`,
`Memory.byteAt_copy`). A move or a clear whose runs lie at arena offsets between `0` and `2^63`
passes its checks (`Memory.move_offset`, `Memory.clear_offset`): the address space above an
arena is larger than any such run.
-/

set_option autoImplicit false

namespace BlockArena

namespace Space

@[simp] theorem size_put (m : Space) (start : Int) (data : ByteArray) :
    (m.put start data).size = m.size := by
  unfold put size
  dsimp only
  split
  · rw [Buffer.size_write]
  · rfl

/-- A write leaves every byte of the buffer outside `[start, start + data.size)` alone. -/
theorem byteAt_put (m : Space) (start : Int) (data : ByteArray) {k : Nat}
    (hk : (k : Int) < start ∨ start + data.size ≤ k) :
    Buffer.byteAt (m.put start data).buffer k = Buffer.byteAt m.buffer k := by
  unfold put
  dsimp only
  split
  · rename_i hlt
    rw [Buffer.byteAt_write, if_neg]
    rw [ByteArray.size_extract]
    omega
  · rfl

@[simp] theorem size_fill0 (m : Space) (lo hi : Int) : (m.fill0 lo hi).size = m.size := by
  unfold fill0 size zeroPart
  dsimp only
  split
  · rw [Buffer.fill0, Buffer.size_write]
  · rfl

/-- Clearing leaves every byte of the buffer outside `[lo, hi)` alone. -/
theorem byteAt_fill0 (m : Space) (lo hi : Int) {k : Nat} (hk : (k : Int) < lo ∨ hi ≤ k) :
    Buffer.byteAt (m.fill0 lo hi).buffer k = Buffer.byteAt m.buffer k := by
  unfold fill0 zeroPart
  dsimp only
  split
  · rename_i hlt
    rw [Buffer.fill0, Buffer.byteAt_write, if_neg]
    simp only [Buffer.zeros, ByteArray.size, Array.size_replicate]
    omega
  · rfl

end Space

namespace Memory

@[simp] theorem size_bytesAt (m : Space) (p : Addr) (off : Int) (n : Nat) :
    (bytesAt m p off n).size = n := by
  unfold bytesAt
  split
  · unfold Space.bytes
    split
    · rename_i h
      simp only [Bool.and_eq_true, decide_eq_true_eq] at h
      rw [ByteArray.size_extract]
      unfold Space.size at h
      omega
    · simp [ByteArray.size]
  · simp [Buffer.zeros, ByteArray.size]

@[simp] theorem size_copy (m : Space) (dst : Addr) (dstOff : Int) (src : Addr) (srcOff n : Int) :
    (copy m dst dstOff src srcOff n).size = m.size := by
  unfold copy
  split
  · rfl
  · cases dst <;> simp [write]

/-- A copy to `dst + dstOff` leaves every byte of the buffer outside the `n` bytes from there
    alone. -/
theorem byteAt_copy (m : Space) (base dstOff : Int) (src : Addr) (srcOff n : Int) {k : Nat}
    (hk : (k : Int) < base + dstOff ∨ base + dstOff + n ≤ k) :
    Buffer.byteAt (copy m (.offset base) dstOff src srcOff n).buffer k = Buffer.byteAt m.buffer k := by
  unfold copy
  split
  · rfl
  · simp only [write]
    apply Space.byteAt_put
    rw [size_bytesAt]
    omega

theorem eq_copy_of_move {m m' : Space} {dst src : Addr} {dstOff srcOff : Int} {n : Int64}
    (h : move m dst dstOff src srcOff n = .ok m') : m' = copy m dst dstOff src srcOff n.toInt := by
  unfold move at h
  cases h1 : checkRun dst dstOff n <;> cases h2 : checkRun src srcOff n <;>
    cases h3 : checkMapped dst n <;> cases h4 : checkMapped src n <;>
    simp_all [bind, Except.bind, pure, Except.pure]

/-- A clear that passes its checks sets `[base + lo, base + hi)` to zero, or does nothing when
    the run is empty. -/
theorem eq_of_clear {m m' : Space} {base : Int} {lo hi : Int64}
    (h : clear m (.offset base) lo hi = .ok m') :
    m' = m ∨ m' = m.fill0 (base + lo.toInt) (base + hi.toInt) := by
  unfold clear at h
  split at h
  · cases h
    exact .inl rfl
  · cases h1 : checkRun (.offset base) lo.toInt (hi - lo) <;>
      cases h2 : checkMapped (.offset base) (hi - lo) <;>
      simp_all [bind, Except.bind, pure, Except.pure, zero]

/-- A run of bytes past an arena offset passes its check when it lies between the offset `0`
    and `2^63`: the address space above it is larger. -/
theorem checkRun_offset {base off : Int} {n : Int64} (h0 : 0 ≤ base + off) (hn : 0 ≤ n.toInt)
    (hend : base + off + n.toInt ≤ 2 ^ 63) : checkRun (.offset base) off n = .ok () := by
  unfold checkRun
  split
  · rfl
  · rw [if_neg]
    simp only [Bool.or_eq_true, decide_eq_true_eq, not_or]
    refine ⟨fun hneg => ?_, ?_⟩
    · have := Int64.lt_iff_toInt_lt.1 hneg
      simp only [Int64.toInt_zero] at this
      omega
    · simp only [Addr.roomAt, Addr.positionAt, Addr.position, Addr.arenaAt]
      omega

theorem checkMapped_offset (base : Int) (n : Int64) : checkMapped (.offset base) n = .ok () := by
  unfold checkMapped
  rw [if_neg]
  simp

/-- A move between two runs of arena offsets below `2^63` passes its checks. -/
theorem move_offset (m : Space) {base dstOff base' srcOff : Int} {n : Int64}
    (hn : 0 ≤ n.toInt) (hd : 0 ≤ base + dstOff) (hdend : base + dstOff + n.toInt ≤ 2 ^ 63)
    (hs : 0 ≤ base' + srcOff) (hsend : base' + srcOff + n.toInt ≤ 2 ^ 63) :
    move m (.offset base) dstOff (.offset base') srcOff n =
      .ok (copy m (.offset base) dstOff (.offset base') srcOff n.toInt) := by
  simp only [move, checkRun_offset hd hn hdend, checkRun_offset hs hn hsend, checkMapped_offset,
    bind, Except.bind, pure, Except.pure]

/-- A clear of a run of arena offsets below `2^63` passes its checks. -/
theorem clear_offset (m : Space) {base : Int} {lo hi : Int64} (hbase : 0 ≤ base)
    (hlo : 0 ≤ lo.toInt) (hhi : base + hi.toInt ≤ 2 ^ 63) :
    clear m (.offset base) lo hi =
      .ok (if hi ≤ lo then m else m.fill0 (base + lo.toInt) (base + hi.toInt)) := by
  unfold clear
  split
  · rfl
  · rename_i hlt
    have hgt : lo.toInt < hi.toInt := by
      have := mt Int64.le_iff_toInt_le.2 hlt
      omega
    have hdiff : (hi - lo).toInt = hi.toInt - lo.toInt := by
      rw [Int64.toInt_sub]
      have := hi.toInt_lt
      apply Int.bmod_eq_of_le <;> omega
    have hrun : checkRun (.offset base) lo.toInt (hi - lo) = .ok () :=
      checkRun_offset (by omega) (by omega) (by omega)
    simp only [hrun, checkMapped_offset, bind, Except.bind, pure, Except.pure, zero]

end Memory

end BlockArena
