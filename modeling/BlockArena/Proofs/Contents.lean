import BlockArena.Proofs.Frame

/-! # What memory holds after a write

The bytes a storage hands out live in one buffer. The module `Space` says what a write leaves
alone; this one says what it puts where it writes, and which requests write at all:

* inside the run it writes, a write puts the bytes it carries (`Space.byteAt_put_of_mem`) and a
  copy the bytes of its source run as they were before it (`Memory.byteAt_copy_of_mem`), also
  when the two runs overlap;
* anywhere in the address space, in the buffer or around it, a write, a clear and a copy read
  back as an `if` over the range they write (`Space.byteAt_put_any`, `Space.byteAt_fill0_any`,
  `Memory.byteAt_copy_any`);
* two runs of the same length inside their buffers read as the same bytes when they agree byte
  by byte (`Space.bytes_congr`);
* a block request writes the occupancy table and nothing past it (`Arena.Spares`): every
  run of `alloc`, `dealloc`, `relocate`, `growInPlace` and `shrinkInPlace`, answered or failed,
  leaves the table's length, the buffer's size and every byte after the table as they were
  (`Act.Stays`). The proof is made once for every relation that setting a table byte and setting
  the counters respect (`Arena.TableWrites`), so other facts about what a request keeps follow
  from the same walk.
-/

set_option autoImplicit false

namespace BlockArena

namespace Buffer

theorem byteAt_extract (b : ByteArray) {lo hi i : Nat} (hhi : lo + i < hi) (hb : lo + i < b.size) :
    byteAt (b.extract lo hi) i = byteAt b (lo + i) := by
  have hlt : i < (b.extract lo hi).size := by
    rw [ByteArray.size_extract]
    omega
  simp only [byteAt, dif_pos hlt, dif_pos hb, ByteArray.getElem_extract]

@[simp] theorem size_zeros (n : Nat) : (zeros n).size = n := by
  simp only [zeros, ByteArray.size, Array.size_replicate]

@[simp] theorem byteAt_zeros (n i : Nat) : byteAt (zeros n) i = 0 := by
  unfold byteAt zeros
  split
  · simp only [ByteArray.getElem_eq_getElem_data, Array.getElem_replicate]
  · rfl

theorem byteAt_of_zero {d : ByteArray} (h : d.data.any (· != 0) = false) (k : Nat) :
    byteAt d k = 0 := by
  unfold byteAt
  split
  · rename_i hk
    simpa [ByteArray.getElem_eq_getElem_data] using Array.any_eq_false.1 h k hk
  · rfl

end Buffer

namespace Space

theorem byteAt_of_mem (m : Space) {j : Int} (h0 : 0 ≤ j) (hj : j < m.size) :
    m.byteAt j = Buffer.byteAt m.buffer j.toNat := by
  unfold byteAt
  rw [if_pos (by simp only [Bool.and_eq_true, decide_eq_true_eq]; exact ⟨h0, hj⟩)]

theorem byteAt_fill0_of_mem (m : Space) {lo hi : Int} {k : Nat} (hlo : lo ≤ k)
    (hhi : (k : Int) < hi) (hk : k < m.size) : Buffer.byteAt (m.fill0 lo hi).buffer k = 0 := by
  unfold size at hk
  unfold fill0 zeroPart
  dsimp only
  rw [if_pos (by omega), Buffer.fill0, Buffer.byteAt_write, if_pos]
  · exact Buffer.byteAt_zeros _ _
  · rw [Buffer.size_zeros]
    omega

/-- A write puts the byte of `data` at every position of the buffer it covers. -/
theorem byteAt_put_of_mem (m : Space) (start : Int) (data : ByteArray) {k : Nat}
    (hlo : start ≤ k) (hhi : (k : Int) < start + data.size) (hk : k < m.size) :
    Buffer.byteAt (m.put start data).buffer k = Buffer.byteAt data (k - start).toNat := by
  have hk' : k < m.buffer.size := hk
  unfold put
  dsimp only
  rw [if_pos (by omega), Buffer.byteAt_write, if_pos]
  · rw [Buffer.byteAt_extract _ (by omega) (by omega)]
    congr 1
    omega
  · rw [ByteArray.size_extract]
    omega

theorem bytes_of_le {m : Space} {start : Int} {n : Nat} (h0 : 0 ≤ start)
    (hend : start + n ≤ m.size) :
    m.bytes start n = m.buffer.extract start.toNat (start.toNat + n) := by
  unfold bytes
  rw [if_pos (by simp only [Bool.and_eq_true, decide_eq_true_eq]; exact ⟨h0, hend⟩)]

/-- Two runs of `n` bytes inside their buffers read the same bytes when they agree byte by
    byte. -/
theorem bytes_congr {m m' : Space} {start start' : Int} {n : Nat} (h0 : 0 ≤ start)
    (hend : start + n ≤ m.size) (h0' : 0 ≤ start') (hend' : start' + n ≤ m'.size)
    (h : ∀ i < n, Buffer.byteAt m'.buffer (start' + i).toNat =
      Buffer.byteAt m.buffer (start + i).toNat) :
    m'.bytes start' n = m.bytes start n := by
  unfold size at hend hend'
  rw [bytes_of_le h0' hend', bytes_of_le h0 hend]
  apply ByteArray.ext_getElem
  · simp only [ByteArray.size_extract]
    omega
  · intro i hi hi'
    simp only [ByteArray.size_extract] at hi hi'
    have hbyte := h i (by omega)
    have hk : (start' + i).toNat < m'.buffer.size := by omega
    have hk' : (start + i).toNat < m.buffer.size := by omega
    simp only [Buffer.byteAt, dif_pos hk, dif_pos hk'] at hbyte
    rw [ByteArray.getElem_extract, ByteArray.getElem_extract]
    have he : start'.toNat + i = (start' + i).toNat := by omega
    have he' : start.toNat + i = (start + i).toNat := by omega
    simp only [he, he']
    exact hbyte

/-! ### Anywhere in the address space -/

/-- The byte at `j` of the runs around the buffer: that of the first run over `j`, and zero
    where none is. -/
def aroundAt (runs : List (Int × ByteArray)) (j : Int) : UInt8 :=
  match runs.find? (covers · j) with
  | some (start, d) => Buffer.byteAt d (j - start).toNat
  | none => 0

theorem byteAt_outside (m : Space) {j : Int} (hj : j < 0 ∨ m.size ≤ j) :
    m.byteAt j = aroundAt m.around j := by
  unfold byteAt
  rw [if_neg (by simp only [Bool.and_eq_true, decide_eq_true_eq]; omega)]
  rfl

theorem aroundAt_cons (run : Int × ByteArray) (runs : List (Int × ByteArray)) (j : Int) :
    aroundAt (run :: runs) j =
      if covers run j then Buffer.byteAt run.2 (j - run.1).toNat else aroundAt runs j := by
  unfold aroundAt
  rw [List.find?_cons]
  cases covers run j <;> rfl

theorem aroundAt_of_not_covers {runs : List (Int × ByteArray)} {j : Int}
    (h : ∀ run ∈ runs, covers run j = false) : aroundAt runs j = 0 := by
  unfold aroundAt
  rw [List.find?_eq_none.2 fun run hrun => by simp [h run hrun]]

theorem aroundAt_append_of_not_covers {runs : List (Int × ByteArray)}
    (rest : List (Int × ByteArray)) {j : Int} (h : ∀ run ∈ runs, covers run j = false) :
    aroundAt (runs ++ rest) j = aroundAt rest j := by
  induction runs with
  | nil => rfl
  | cons run runs ih =>
    rw [List.cons_append, aroundAt_cons, if_neg (by simp [h run List.mem_cons_self]),
      ih fun r hr => h r (List.mem_cons_of_mem _ hr)]

theorem overlaps_of_covers {a b : Int × ByteArray} {j : Int} (ha : covers a j = true)
    (hb : covers b j = true) : overlaps a b = true := by
  simp only [covers, overlaps, Bool.and_eq_true, decide_eq_true_eq] at ha hb ⊢
  omega

/-- Leaving out the written runs that do not matter changes no byte, when the written runs lie
    apart: such a run holds zeros and meets no earlier one. -/
theorem aroundAt_filter_matters (m : Space) {runs : List (Int × ByteArray)}
    (hapart : runs.Pairwise fun a b => overlaps a b = false) (j : Int) :
    aroundAt (runs.filter m.matters ++ m.around) j = aroundAt (runs ++ m.around) j := by
  induction runs with
  | nil => rfl
  | cons run runs ih =>
    obtain ⟨hrun, hrest⟩ := List.pairwise_cons.1 hapart
    by_cases hm : m.matters run = true
    · rw [List.filter_cons_of_pos hm, List.cons_append, List.cons_append, aroundAt_cons,
        aroundAt_cons, ih hrest]
    · rw [List.filter_cons_of_neg hm, ih hrest, List.cons_append, aroundAt_cons]
      split
      · -- a run left out holds zeros, and no other run reaches its bytes
        rename_i hcov
        simp only [matters, Bool.or_eq_true, not_or, Bool.not_eq_true] at hm
        rw [Buffer.byteAt_of_zero hm.1]
        refine aroundAt_of_not_covers fun r hr => ?_
        by_contra hr'
        rw [Bool.not_eq_false] at hr'
        have hov := overlaps_of_covers hcov hr'
        rcases List.mem_append.1 hr with hr | hr
        · rw [hrun r hr] at hov
          cases hov
        · exact List.any_eq_false.1 hm.2 r hr hov
      · rfl

theorem byteAt_part (data : ByteArray) {start lo hi j : Int} (hlo : start ≤ lo) (hj : lo ≤ j)
    (hjhi : j < hi) (hjd : j < start + data.size) :
    Buffer.byteAt (data.extract (lo - start).toNat (hi - start).toNat) (j - lo).toNat =
      Buffer.byteAt data (j - start).toNat := by
  rw [Buffer.byteAt_extract _ (by omega) (by omega)]
  congr 1
  omega

theorem put_runs_apart (m : Space) (start : Int) (data : ByteArray) :
    let stop := start + data.size
    let part := fun (lo hi : Int) => data.extract (lo - start).toNat (hi - start).toNat
    ((if start < min stop 0 then [(start, part start (min stop 0))] else []) ++
      (if max start m.size < stop then [(max start (m.size : Int), part (max start m.size) stop)]
        else [])).Pairwise fun a b => overlaps a b = false := by
  intro stop part
  refine List.pairwise_append.2 ⟨?_, ?_, fun a ha b hb => ?_⟩
  · split <;> simp
  · split <;> simp
  · split at ha <;> split at hb <;> simp only [List.mem_singleton, List.not_mem_nil] at ha hb
    subst ha hb
    simp only [overlaps, part, ByteArray.size_extract, Bool.and_eq_false_iff,
      decide_eq_false_iff_not]
    omega

/-- A write reads back at every position it covers, in the buffer or around it, and leaves every
    other position alone. -/
theorem byteAt_put_any (m : Space) (start : Int) (data : ByteArray) (j : Int) :
    (m.put start data).byteAt j =
      if start ≤ j ∧ j < start + data.size then Buffer.byteAt data (j - start).toNat
      else m.byteAt j := by
  by_cases hbuf : 0 ≤ j ∧ j < m.size
  · -- in the buffer
    obtain ⟨h0, hj⟩ := hbuf
    have hk : ((j.toNat : Nat) : Int) = j := Int.toNat_of_nonneg h0
    rw [byteAt_of_mem _ h0 (by rw [size_put]; exact hj), byteAt_of_mem _ h0 hj]
    split
    · rename_i hin
      rw [byteAt_put_of_mem _ _ _ (by omega) (by omega) (by omega), hk]
    · exact byteAt_put _ _ _ (by omega)
  have hj : j < 0 ∨ m.size ≤ j := by omega
  rw [byteAt_outside _ (by rw [size_put]; exact hj), byteAt_outside _ hj]
  by_cases hin : start ≤ j ∧ j < start + data.size
  · rw [if_pos hin]
    unfold put
    dsimp only
    rw [aroundAt_filter_matters m (put_runs_apart m start data) j]
    rcases hj with hneg | hpast
    · -- before the buffer: the first run covers `j`
      rw [if_pos (by omega), List.singleton_append, List.cons_append, aroundAt_cons, if_pos]
      · exact byteAt_part data le_rfl hin.1 (by omega) hin.2
      · simp only [covers, ByteArray.size_extract, Bool.and_eq_true, decide_eq_true_eq]
        omega
    · -- past the buffer: the run after it covers `j`
      rw [List.append_assoc, aroundAt_append_of_not_covers _ fun r hr => ?_,
        if_pos (by omega), List.singleton_append, aroundAt_cons, if_pos]
      · exact byteAt_part data (by omega) (by omega) (by omega) hin.2
      · simp only [covers, ByteArray.size_extract, Bool.and_eq_true, decide_eq_true_eq]
        omega
      · split at hr <;> simp only [List.mem_singleton, List.not_mem_nil] at hr
        subst hr
        simp only [covers, ByteArray.size_extract, Bool.and_eq_false_iff, decide_eq_false_iff_not]
        omega
  · -- outside the write: no written run covers `j`
    rw [if_neg hin]
    unfold put
    dsimp only
    rw [aroundAt_filter_matters m (put_runs_apart m start data) j,
      aroundAt_append_of_not_covers _ fun r hr => ?_]
    rcases List.mem_append.1 hr with hr | hr <;>
      (split at hr <;> simp only [List.mem_singleton, List.not_mem_nil] at hr
       subst hr
       simp only [covers, ByteArray.size_extract, Bool.and_eq_false_iff, decide_eq_false_iff_not]
       omega)

theorem byteAt_zeroPart (d : ByteArray) (lo hi : Int) (k : Nat) :
    Buffer.byteAt (zeroPart d lo hi) k = if lo ≤ k ∧ k < hi then 0 else Buffer.byteAt d k := by
  have hsize : (zeroPart d lo hi).size = d.size := size_fill0 ⟨d, []⟩ lo hi
  split
  · rename_i hin
    by_cases hk : k < d.size
    · exact byteAt_fill0_of_mem ⟨d, []⟩ hin.1 hin.2 hk
    · unfold Buffer.byteAt
      rw [dif_neg (by omega)]
  · exact byteAt_fill0 ⟨d, []⟩ lo hi (by omega)

theorem aroundAt_fill0 (runs : List (Int × ByteArray)) (lo hi j : Int) :
    aroundAt (runs.map fun (start, d) => (start, zeroPart d (lo - start) (hi - start))) j =
      if lo ≤ j ∧ j < hi then 0 else aroundAt runs j := by
  induction runs with
  | nil => split <;> rfl
  | cons run runs ih =>
    obtain ⟨start, d⟩ := run
    have hsize : (zeroPart d (lo - start) (hi - start)).size = d.size :=
      size_fill0 ⟨d, []⟩ _ _
    rw [List.map_cons, aroundAt_cons, aroundAt_cons, ih]
    simp only [covers, hsize, byteAt_zeroPart, Bool.and_eq_true, decide_eq_true_eq]
    by_cases hcov : start ≤ j ∧ j < start + d.size
    · by_cases hr : lo ≤ j ∧ j < hi
      · rw [if_pos hcov, if_pos (by omega), if_pos hr]
      · rw [if_pos hcov, if_neg (by omega), if_neg hr, if_pos hcov]
    · rw [if_neg hcov]
      by_cases hr : lo ≤ j ∧ j < hi
      · rw [if_pos hr, if_pos hr]
      · rw [if_neg hr, if_neg hr, if_neg hcov]

/-- Clearing zeroes every position of `[lo, hi)`, in the buffer or around it, and leaves every
    other position alone. -/
theorem byteAt_fill0_any (m : Space) (lo hi j : Int) :
    (m.fill0 lo hi).byteAt j = if lo ≤ j ∧ j < hi then 0 else m.byteAt j := by
  by_cases hbuf : 0 ≤ j ∧ j < m.size
  · obtain ⟨h0, hj⟩ := hbuf
    have hk : ((j.toNat : Nat) : Int) = j := Int.toNat_of_nonneg h0
    rw [byteAt_of_mem _ h0 (by rw [size_fill0]; exact hj), byteAt_of_mem _ h0 hj]
    split
    · exact byteAt_fill0_of_mem _ (by omega) (by omega) (by omega)
    · exact byteAt_fill0 _ _ _ (by omega)
  · have hj : j < 0 ∨ m.size ≤ j := by omega
    rw [byteAt_outside _ (by rw [size_fill0]; exact hj), byteAt_outside _ hj]
    exact aroundAt_fill0 m.around lo hi j

theorem byteAt_bytes (m : Space) (start : Int) (n : Nat) {i : Nat} (hi : i < n) :
    Buffer.byteAt (m.bytes start n) i = m.byteAt (start + i) := by
  by_cases hin : 0 ≤ start ∧ start + n ≤ m.size
  · rw [bytes_of_le hin.1 hin.2, Buffer.byteAt_extract _ (by omega) (by unfold size at hin; omega),
      byteAt_of_mem _ (by omega) (by omega)]
    congr 1
    omega
  · unfold bytes
    rw [if_neg (by simp only [Bool.and_eq_true, decide_eq_true_eq]; exact hin)]
    have hs :
        i < (ByteArray.mk ((Array.range n).map fun (i : Nat) => m.byteAt (start + i))).size := by
      simp only [ByteArray.size, Array.size_map, Array.size_range]
      exact hi
    simp only [Buffer.byteAt, dif_pos hs, ByteArray.getElem_eq_getElem_data, Array.getElem_map,
      Array.getElem_range]

end Space

namespace Memory

/-- A copy between two runs inside the buffer puts at the `i`-th byte of its destination the
    `i`-th byte its source held before: it reads every byte before it writes one. -/
theorem byteAt_copy_of_mem (m : Space) {base dstOff base' srcOff n : Int} {i : Nat}
    (hd : 0 ≤ base + dstOff) (hdend : base + dstOff + n ≤ m.size)
    (hs : 0 ≤ base' + srcOff) (hsend : base' + srcOff + n ≤ m.size) (hi : (i : Int) < n) :
    Buffer.byteAt (copy m (.offset base) dstOff (.offset base') srcOff n).buffer
        (base + dstOff + i).toNat =
      Buffer.byteAt m.buffer (base' + srcOff + i).toNat := by
  unfold copy
  rw [if_neg (by omega)]
  simp only [write, bytesAt]
  rw [Space.bytes_of_le (by omega) (by omega)]
  rw [Space.byteAt_put_of_mem _ _ _ (by omega)
    (by rw [ByteArray.size_extract]; unfold Space.size at hsend; omega) (by omega)]
  rw [Buffer.byteAt_extract _ (by omega) (by unfold Space.size at hsend; omega)]
  congr 1
  omega

/-- A copy between two arena offsets puts at every position of its destination the byte its
    source held there before, in the buffer or around it, and leaves every other position alone:
    it reads every byte before it writes one. -/
theorem byteAt_copy_any (m : Space) (base dstOff base' srcOff n j : Int) :
    (copy m (.offset base) dstOff (.offset base') srcOff n).byteAt j =
      if base + dstOff ≤ j ∧ j < base + dstOff + n then
        m.byteAt (base' + srcOff + (j - (base + dstOff)))
      else m.byteAt j := by
  unfold copy
  split
  · rw [if_neg (by omega)]
  · simp only [write]
    rw [Space.byteAt_put_any, size_bytesAt]
    by_cases hin : base + dstOff ≤ j ∧ j < base + dstOff + n
    · rw [if_pos (by omega), if_pos hin]
      simp only [bytesAt]
      rw [Space.byteAt_bytes _ _ _ (by omega)]
      congr 1
      omega
    · rw [if_neg (by omega), if_neg hin]

end Memory

namespace Act

variable {σ α β : Type} {R : σ → σ → Prop}

/-- Every run of `x`, whether it answers or fails, leaves a state related by `R` to the one it
    started from. -/
def Stays (R : σ → σ → Prop) (x : Act σ α) : Prop := ∀ s, R s (x.leaves s)

theorem Stays.keeps {x : Act σ α} (h : Stays R x) : Keeps R x := fun s a s' hrun => by
  have := h s
  rwa [Act.leaves_of_ok hrun] at this

theorem Stays.of_inert [Std.Refl R] {x : Act σ α} (h : Inert x) : Stays R x := fun s => by
  cases hx : x.run s with
  | ok a s' =>
    rw [Act.leaves_of_ok hx, h.1 s a s' hx]
    exact Std.Refl.refl s
  | error f s' =>
    rw [Act.leaves_of_error hx, h.2 s f s' hx]
    exact Std.Refl.refl s

theorem Stays.modify {f : σ → σ} (h : ∀ s, R s (f s)) : Stays R (modify f : Act σ PUnit) :=
  fun s => by
    rw [Act.leaves_of_ok (Act.run_modify f s)]
    exact h s

theorem Stays.bind [Std.Refl R] [IsTrans σ R] {x : Act σ α} {g : α → Act σ β} (hx : Stays R x)
    (hg : ∀ a, Stays R (g a)) : Stays R (x >>= g) := fun s => by
  cases h₁ : x.run s with
  | ok a s₁ =>
    have hR := hx s
    rw [Act.leaves_of_ok h₁] at hR
    have hleaves : (x >>= g).leaves s = (g a).leaves s₁ := by
      unfold Act.leaves
      rw [Act.run_bind_ok h₁]
    rw [hleaves]
    exact trans_of R hR (hg a s₁)
  | error f s₁ =>
    have hR := hx s
    rw [Act.leaves_of_error h₁] at hR
    rw [Act.leaves_of_error (Act.run_bind_error h₁)]
    exact hR

end Act

namespace Arena

/-- `a'` keeps the length of the table of `a`, the size of its buffer and every byte past the
    table outside the positions `W`. A block request spares every position: it writes its table
    and nothing else. -/
structure Spares (W : Int → Prop) (a a' : Arena) : Prop where
  tableLength_eq : a'.tableLength = a.tableLength
  size_eq : a'.bytes.size = a.bytes.size
  byteAt_eq : ∀ k : Nat, a.tableLength ≤ k → ¬W k →
    Buffer.byteAt a'.bytes k = Buffer.byteAt a.bytes k

instance (W : Int → Prop) : Std.Refl (Spares W) := ⟨fun _ => ⟨rfl, rfl, fun _ _ _ => rfl⟩⟩

instance (W : Int → Prop) : IsTrans Arena (Spares W) :=
  ⟨fun _ _ _ h₁ h₂ => ⟨h₂.tableLength_eq.trans h₁.tableLength_eq, h₂.size_eq.trans h₁.size_eq,
    fun k hk hW => (h₂.byteAt_eq k (by rw [h₁.tableLength_eq]; exact hk) hW).trans
      (h₁.byteAt_eq k hk hW)⟩⟩

theorem Spares.mono {W W' : Int → Prop} {a a' : Arena} (h : a.Spares W a')
    (hW : ∀ k, W k → W' k) : a.Spares W' a' :=
  ⟨h.tableLength_eq, h.size_eq, fun k hk hk' => h.byteAt_eq k hk fun hw => hk' (hW k hw)⟩

theorem Spares.of_none {W : Int → Prop} {a a' : Arena} (h : a.Spares (fun _ => False) a') :
    a.Spares W a' :=
  h.mono fun _ hk => hk.elim

theorem spares_counters (W : Int → Prop) (a : Arena) (count used : Int64) :
    a.Spares W { a with allocationCount := count, usedBlocks := used } :=
  ⟨rfl, rfl, fun _ _ _ => rfl⟩

theorem spares_setByte (W : Int → Prop) (a : Arena) {i : Nat} (hi : i < a.tableLength)
    (v : UInt8) : a.Spares W { a with bytes := Buffer.setByte a.bytes i v } where
  tableLength_eq := rfl
  size_eq := size_setByte _ _ _
  byteAt_eq k hk _ := by
    by_cases hb : i < a.bytes.size
    · rw [byteAt_setByte _ _ hb, if_neg (by omega)]
    · simp only [Buffer.setByte, dif_neg hb]

theorem tableByte_bounds {a : Arena} {i : Int64} {byte : UInt8} (h : a.tableByte i = .ok byte) :
    0 ≤ i.toInt ∧ i.toInt < a.tableLength := by
  unfold tableByte at h
  split at h
  · rename_i hin
    simpa using hin
  · cases h

/-- The two things a block request changes in an arena: a byte of its table, and its two
    counters. A relation that each such change respects holds along every run of a request. -/
structure TableWrites (R : Arena → Arena → Prop) : Prop where
  setByte : ∀ (a : Arena) (i : Nat), i < a.tableLength → ∀ v,
    R a { a with bytes := Buffer.setByte a.bytes i v }
  counters : ∀ (a : Arena) (count used : Int64),
    R a { a with allocationCount := count, usedBlocks := used }

theorem spares_tableWrites (W : Int → Prop) : TableWrites (Spares W) :=
  ⟨fun a _ hi v => spares_setByte W a hi v, spares_counters W⟩

section Requests

variable {R : Arena → Arena → Prop} [Std.Refl R] [IsTrans Arena R]

/-- The byte loop of `markFrom` sets bits of table bytes only, whether it runs through or stops
    at a byte outside the table: each byte it writes has passed the table's bounds check. -/
theorem markFrom_within (hR : TableWrites R) (used : Bool) :
    ∀ (n : Nat) (i : Int64) (j : Fin 8) (count : Int),
    count.toNat = n → Act.Stays R (markFrom i j count used) := by
  intro n
  induction n using Nat.strong_induction_on with
  | _ n ih =>
  intro i j count hn a
  by_cases hc : count ≤ 0
  · have hrun : (markFrom i j count used).run a = .ok () a := by
      simp only [EStateM.run]
      rw [markFrom, dif_pos hc]
    rw [Act.leaves_of_ok hrun]
    exact Std.Refl.refl a
  · cases hbyte : a.tableByte i with
    | error f =>
      have hrun : (markFrom i j count used).run a = .error f a := by
        simp only [EStateM.run]
        rw [markFrom, dif_neg hc]
        simp only [hbyte]
      rw [Act.leaves_of_error hrun]
      exact Std.Refl.refl a
    | ok byte =>
      obtain ⟨hi0, hilt⟩ := tableByte_bounds hbyte
      have hset := hR.setByte a i.toNatClampNeg
        (by show i.toInt.toNat < a.tableLength; omega)
        (if used then byte ||| spanMask j (min count (8 - j.val)).toNat
          else byte &&& ~~~spanMask j (min count (8 - j.val)).toNat)
      -- the rest of the run starts at the next byte, with fewer blocks left
      have hstep : (markFrom i j count used).leaves a =
          (markFrom (i + 1) ⟨0, by decide⟩ (count - min count (8 - j.val)) used).leaves
            { a with
              bytes := Buffer.setByte a.bytes i.toNatClampNeg
                (if used then byte ||| spanMask j (min count (8 - j.val)).toNat
                  else byte &&& ~~~spanMask j (min count (8 - j.val)).toNat) } := by
        unfold Act.leaves
        simp only [EStateM.run]
        rw [markFrom, dif_neg hc]
        simp only [hbyte]
      rw [hstep]
      exact trans_of R hset (ih _ (by omega) (i + 1) ⟨0, by decide⟩ _ rfl _)

theorem markRun_within (hR : TableWrites R) (first count : Int64) (used : Bool) :
    Act.Stays R (markRun first count used) :=
  show Act.Stays R (markFrom (runStart first).1 (runStart first).2 count.toInt used) from
    markFrom_within hR used _ _ _ _ rfl

theorem alloc_within (hR : TableWrites R) (l : Layout) : Act.Stays R (alloc l) := by
  unfold alloc
  split
  · exact .of_inert (.fail _)
  · refine (Act.Stays.of_inert .get).bind fun a => ?_
    dsimp only
    split
    · exact .of_inert (.fail _)
    · refine (Act.Stays.of_inert (.ofExcept _)).bind fun r => ?_
      split
      · exact .of_inert (.fail _)
      · exact (markRun_within hR _ _ _).bind fun _ =>
          (Act.Stays.modify fun a => hR.counters a _ _).bind fun _ => .of_inert (.pure _)

theorem dealloc_within (hR : TableWrites R) (off : Int64) (l : Layout) :
    Act.Stays R (dealloc off l) := by
  unfold dealloc
  refine (Act.Stays.of_inert .get).bind fun a => ?_
  split
  · exact .of_inert (.fail _)
  · exact (markRun_within hR _ _ _).bind fun _ => Act.Stays.modify fun a => hR.counters a _ _

theorem relocate_within (hR : TableWrites R) (off : Int64) (l : Layout) :
    Act.Stays R (relocate off l) := by
  unfold relocate
  refine (Act.Stays.of_inert .get).bind fun a => ?_
  split
  · exact .of_inert (.fail _)
  · refine (markRun_within hR _ _ _).bind fun _ => (Act.Stays.of_inert .get).bind fun a' =>
      (Act.Stays.of_inert (.ofExcept _)).bind fun r => ?_
    split
    · exact (markRun_within hR _ _ _).bind fun _ => .of_inert (.fail _)
    · exact (markRun_within hR _ _ _).bind fun _ => .of_inert (.pure _)

theorem growInPlace_within (hR : TableWrites R) (off : Int64) (old new : Layout) :
    Act.Stays R (growInPlace off old new) := by
  unfold growInPlace
  refine (Act.Stays.of_inert .get).bind fun a => ?_
  dsimp only
  split
  · exact .of_inert (.pure _)
  · split
    · exact .of_inert (.pure _)
    · refine (Act.Stays.of_inert (.ofExcept _)).bind fun free => ?_
      split
      · exact .of_inert (.pure _)
      · exact (markRun_within hR _ _ _).bind fun _ =>
          (Act.Stays.modify fun a => hR.counters a _ _).bind fun _ => .of_inert (.pure _)

theorem shrinkInPlace_within (hR : TableWrites R) (off : Int64) (old new : Layout) :
    Act.Stays R (shrinkInPlace off old new) := by
  unfold shrinkInPlace
  refine (Act.Stays.of_inert .get).bind fun a => ?_
  dsimp only
  split
  · exact .of_inert (.pure _)
  · exact (markRun_within hR _ _ _).bind fun _ =>
      (Act.Stays.modify fun a => hR.counters a _ _).bind fun _ => .of_inert (.pure _)

end Requests

theorem alloc_stays (l : Layout) : Act.Stays (Spares fun _ => False) (alloc l) :=
  alloc_within (spares_tableWrites _) l

theorem dealloc_stays (off : Int64) (l : Layout) :
    Act.Stays (Spares fun _ => False) (dealloc off l) :=
  dealloc_within (spares_tableWrites _) off l

theorem relocate_stays (off : Int64) (l : Layout) :
    Act.Stays (Spares fun _ => False) (relocate off l) :=
  relocate_within (spares_tableWrites _) off l

theorem growInPlace_stays (off : Int64) (old new : Layout) :
    Act.Stays (Spares fun _ => False) (growInPlace off old new) :=
  growInPlace_within (spares_tableWrites _) off old new

theorem shrinkInPlace_stays (off : Int64) (old new : Layout) :
    Act.Stays (Spares fun _ => False) (shrinkInPlace off old new) :=
  shrinkInPlace_within (spares_tableWrites _) off old new

end Arena

end BlockArena
