import BlockArena.Proofs.Isolation.Handles
import BlockArena.Proofs.Store.Calls

/-! # Compaction slides allocations down

`compact` visits the live entries of a block storage in address order and moves each one to the
first fit of its arena that counts the entry's own blocks as free. On a well-formed store:

* every relocation it asks for succeeds: the entry's own run is aligned to its layout, so once it
  is cleared it is itself a fit, and the first fit lies at or below it
  (`BlockStore.WellFormed.relocate_lowers`);
* one step leaves every other entry alone and records the entry at the first fit with its layout
  and size, counting it as moved exactly when its address changed
  (`BlockStore.WellFormed.compactOne_lowers`);
* so a whole compaction keeps the live handles with their layouts, sizes and bytes, never raises
  an address, reports the handles whose address changed and their bytes, and leaves the arena's
  counters alone (`compaction_slides_down`).
-/

set_option autoImplicit false

namespace BlockArena

namespace Word

/-- A sum of words that are not negative is the sum of their values, as long as that sum
    fits. -/
theorem toInt_sum_of_nonneg : ∀ {l : List Int64}, (∀ x ∈ l, 0 ≤ x.toInt) →
    (l.map Int64.toInt).sum < 2 ^ 63 → l.sum.toInt = (l.map Int64.toInt).sum
  | [], _, _ => rfl
  | x :: l, hnn, hlt => by
    have hx := hnn x List.mem_cons_self
    have hrest : ∀ y ∈ l, 0 ≤ y.toInt := fun y hy => hnn y (List.mem_cons_of_mem _ hy)
    have hsum : 0 ≤ (l.map Int64.toInt).sum :=
      List.sum_nonneg fun y hy => by
        obtain ⟨z, hz, rfl⟩ := List.mem_map.1 hy
        exact hrest z hz
    rw [List.map_cons, List.sum_cons] at hlt
    have ih := toInt_sum_of_nonneg hrest (by omega)
    rw [List.sum_cons, List.map_cons, List.sum_cons, toInt_add_of_fits (by rw [ih]; exact ⟨by omega, hlt⟩),
      ih]

end Word

namespace Arena

/-- A buffer is its bits: a buffer of the same size in which every block has the bit it has in
    the arena's buffer is that buffer. -/
theorem bytes_eq_of_usedBit {a : Arena} {bytes : ByteArray} (hsize : bytes.size = a.bytes.size)
    (hbits : ∀ b : Nat, usedBit { a with bytes := bytes } b = a.usedBit b) : bytes = a.bytes := by
  have hbyte : ∀ i, Buffer.byteAt bytes i = Buffer.byteAt a.bytes i := by
    intro i
    apply UInt8.toNat_inj.1
    apply Nat.eq_of_testBit_eq
    intro j
    by_cases hj : j < 8
    · have h := hbits (8 * i + (7 - j))
      rw [usedBit_eq_testBit, usedBit_eq_testBit] at h
      have hdiv : (8 * i + (7 - j)) / 8 = i := by omega
      have hmod : 7 - (8 * i + (7 - j)) % 8 = j := by omega
      rw [hdiv, hmod] at h
      exact h
    · -- a byte has no bit past the eighth
      have hpow : 2 ^ 8 ≤ 2 ^ j := Nat.pow_le_pow_right (by decide) (by omega)
      rw [Nat.testBit_lt_two_pow (lt_of_lt_of_le (UInt8.toNat_lt _) hpow),
        Nat.testBit_lt_two_pow (lt_of_lt_of_le (UInt8.toNat_lt _) hpow)]
  apply ByteArray.ext_getElem hsize
  intro i hi hi'
  have h := hbyte i
  simp only [Buffer.byteAt, dif_pos hi, dif_pos hi'] at h
  exact h

theorem Marked.restores {a : Arena} {bytes₁ bytes₂ : ByteArray} {first count : Int}
    (h₁ : a.Marked bytes₁ first count false)
    (h₂ : Arena.Marked { a with bytes := bytes₁ } bytes₂ first count true)
    (hused : ∀ b : Nat, first ≤ b → b < first + count → a.usedBit b = true) : bytes₂ = a.bytes := by
  refine bytes_eq_of_usedBit (h₂.size_eq.trans h₁.size_eq) fun b => ?_
  have hb₂ := h₂.usedBit_eq b
  rw [h₁.usedBit_eq b] at hb₂
  rw [@usedBit_congr { { a with bytes := bytes₁ } with bytes := bytes₂ } { a with bytes := bytes₂ }
    rfl b, hb₂]
  split
  · rename_i hin
    exact (hused b hin.1 hin.2).symm
  · rfl

namespace Geometry

variable {a : Arena} (g : a.Geometry)
include g

theorem blockOffset_le_iff {t u : Nat} (ht : (t : Int) ≤ a.blockCount.toInt)
    (hu : (u : Int) ≤ a.blockCount.toInt) :
    (a.blockOffset (Int64.ofNat t)).toInt ≤ (a.blockOffset (Int64.ofNat u)).toInt ↔ t ≤ u := by
  rw [g.blockOffset_ofNat ht, g.blockOffset_ofNat hu]
  have hbs := g.blockSize_pos
  constructor
  · intro hle
    have := le_of_mul_le_mul_right hle hbs
    omega
  · intro hle
    exact Int.mul_le_mul_of_nonneg_right (by omega) hbs.le

theorem blockOffset_inj {t u : Nat} (ht : (t : Int) ≤ a.blockCount.toInt)
    (hu : (u : Int) ≤ a.blockCount.toInt)
    (heq : a.blockOffset (Int64.ofNat t) = a.blockOffset (Int64.ofNat u)) : t = u := by
  have h₁ := (g.blockOffset_le_iff ht hu).1 (le_of_eq (congrArg Int64.toInt heq))
  have h₂ := (g.blockOffset_le_iff hu ht).1 (le_of_eq (congrArg Int64.toInt heq.symm))
  omega

end Geometry

end Arena

namespace BlockStore

section LiveEntry

variable {s : BlockStore} (hw : s.WellFormed) {h : UInt64} {e : BlockEntry}
  (hmem : (h, e) ∈ s.entries)
include hw hmem

/-- A live entry's run, once its blocks are cleared, is itself a fit for its layout: it ends
    inside the arena, its address has the layout's alignment, and its blocks are free. -/
theorem WellFormed.self_fits {bytes₁ : ByteArray}
    (hm₁ : s.arena.Marked bytes₁ (s.arena.runAt e.offset e.size).start
      (s.arena.blocksFor e.layout.size).toInt false) :
    Arena.FitsAt { s.arena with bytes := bytes₁ } (s.arena.blocksFor e.layout.size) e.layout.align
      (s.arena.runAt e.offset e.size).start := by
  have g := hw.geometry
  have hp := hw.placed _ hmem
  obtain ⟨-, -, hend⟩ := hw.run_inside hmem
  refine ⟨hend, ?_, fun b h1 h2 => ?_⟩
  · -- the run starts at the entry's address, which has the layout's alignment
    have hoff := hw.blockOffset_start hmem
    have hal : Addr.alignedAt (s.arena.blockOffset
        (Int64.ofNat (s.arena.runAt e.offset e.size).start)).toInt e.layout.align = true := by
      rw [hoff]
      exact hp.aligned
    simp only [Arena.blockAligned, g.live, Bool.false_eq_true, ite_false]
    exact hal
  · rw [hm₁.usedBit_eq b, if_pos ⟨by omega, by omega⟩]

/-- Relocating a live entry of a well-formed store succeeds: its blocks are cleared, and the
    first fit of the arena that leaves, which lies at or below the entry's own run, is marked
    used and answered with the bytes of the entry's blocks. -/
theorem WellFormed.relocate_lowers :
    ∃ (t : Nat) (bytes₁ bytes₂ : ByteArray),
      t ≤ (s.arena.runAt e.offset e.size).start ∧
      (s.arena.blockOffset (Int64.ofNat t)).toInt ≤ e.offset.toInt ∧
      s.arena.Marked bytes₁ (s.arena.runAt e.offset e.size).start
        (s.arena.blocksFor e.layout.size).toInt false ∧
      Arena.FitsAt { s.arena with bytes := bytes₁ } (s.arena.blocksFor e.layout.size)
        e.layout.align t ∧
      (∀ v, v < t → ¬Arena.FitsAt { s.arena with bytes := bytes₁ }
        (s.arena.blocksFor e.layout.size) e.layout.align v) ∧
      Arena.Marked { s.arena with bytes := bytes₁ } bytes₂ t
        (s.arena.blocksFor e.layout.size).toInt true ∧
      (Arena.relocate e.offset e.layout).run s.arena =
        .ok (s.arena.blockOffset (Int64.ofNat t), s.arena.blocksFor e.layout.size * s.arena.blockSize)
          { s.arena with bytes := bytes₂ } := by
  have g := hw.geometry
  obtain ⟨hpos, hcount, hend⟩ := hw.run_inside hmem
  have hoff := hw.blockOffset_start hmem
  obtain ⟨bytes₁, hm₁, hcases⟩ := @Arena.relocate_spec _ g (s.arena.runAt e.offset e.size).start
    e.layout (by omega) hend (by omega)
  rw [hoff] at hcases
  have hself := hw.self_fits hmem hm₁
  rcases hcases with ⟨bytes₂, hnone, -, -⟩ | ⟨t, bytes₂, hfit, hmin, hm₂, hrun⟩
  · -- with the run itself free and aligned, some block fits
    exact absurd hself (hnone _)
  · have hle : t ≤ (s.arena.runAt e.offset e.size).start := by
      by_contra hlt
      exact hmin _ (by omega) hself
    refine ⟨t, bytes₁, bytes₂, hle, ?_, hm₁, hfit, hmin, hm₂, hrun⟩
    rw [← hoff]
    exact (g.blockOffset_le_iff (by have := hfit.1; omega) (by omega)).2 hle

/-- One step of compaction on a live entry of a well-formed store answers and leaves a
    well-formed store. The entry is recorded at the first fit `t` of the arena with the entry's
    blocks cleared, at or below its run, with its layout and size; every other entry, the arena
    but for its buffer, the handle numbers and the epoch stay; the bits of the blocks are those of the
    cleared arena with `t`'s run marked. The step counts the entry's bytes as moved exactly when
    its address changes. -/
theorem WellFormed.compactOne_lowers (c : Compaction) :
    ∃ (t : Nat) (bytes₁ : ByteArray) (s' : BlockStore),
      t ≤ (s.arena.runAt e.offset e.size).start ∧
      (s.arena.blockOffset (Int64.ofNat t)).toInt ≤ e.offset.toInt ∧
      s.arena.Marked bytes₁ (s.arena.runAt e.offset e.size).start
        (s.arena.blocksFor e.layout.size).toInt false ∧
      Arena.FitsAt { s.arena with bytes := bytes₁ } (s.arena.blocksFor e.layout.size)
        e.layout.align t ∧
      (∀ v, v < t → ¬Arena.FitsAt { s.arena with bytes := bytes₁ }
        (s.arena.blocksFor e.layout.size) e.layout.align v) ∧
      (compactOne c (h, e)).run s =
        .ok (if s.arena.blockOffset (Int64.ofNat t) = e.offset then c
          else { bytesMoved := c.bytesMoved + e.size,
                 allocationsMoved := c.allocationsMoved + 1 }) s' ∧
      s'.WellFormed ∧ s'.nextHandle = s.nextHandle ∧ s'.epoch = s.epoch ∧
      (∃ bytes, s'.arena = { s.arena with bytes := bytes }) ∧
      s'.entries.lookup h = some ⟨s.arena.blockOffset (Int64.ofNat t), e.layout, e.size⟩ ∧
      (∀ k, k ≠ h → s'.entries.lookup k = s.entries.lookup k) ∧
      ∀ b : Nat, (b : Int) < s.arena.blockCount.toInt →
        s'.arena.usedBit b =
          if (t : Int) ≤ b ∧ (b : Int) < t + (s.arena.blocksFor e.layout.size).toInt then true
          else Arena.usedBit { s.arena with bytes := bytes₁ } b := by
  have g := hw.geometry
  have hp := hw.placed _ hmem
  obtain ⟨hpos, hcount, hend⟩ := hw.run_inside hmem
  have hoff := hw.blockOffset_start hmem
  obtain ⟨t, bytes₁, bytes₂, hle, hlow, hm₁, hfit, hmin, hm₂, hrun⟩ := hw.relocate_lowers hmem
  have hoc : 0 < (s.arena.blocksFor e.layout.size).toInt := hp.blocks_pos
  have hsize := hw.size_eq_blocks hmem
  have htend : (t : Int) + (s.arena.blocksFor e.layout.size).toInt ≤ s.arena.blockCount.toInt :=
    hfit.1
  -- the relocation answers its own address exactly when the first fit is the run itself
  have hsame : s.arena.blockOffset (Int64.ofNat t) = e.offset ↔
      t = (s.arena.runAt e.offset e.size).start := by
    constructor
    · intro heq
      exact g.blockOffset_inj (by omega) (by omega) (heq.trans hoff.symm)
    · intro heq
      rw [heq, hoff]
  have hbits₂ : ∀ b : Nat, Arena.usedBit { s.arena with bytes := bytes₂ } b =
      if (t : Int) ≤ b ∧ (b : Int) < t + (s.arena.blocksFor e.layout.size).toInt then true
        else Arena.usedBit { s.arena with bytes := bytes₁ } b := fun b => hm₂.usedBit_eq b
  have hstep := hw.compactOne_step hmem c
  by_cases hts : t = (s.arena.runAt e.offset e.size).start
  · -- the first fit is the run itself: only the table is rewritten
    have hrun' : (compactOne c (h, e)).run s =
        .ok c { s with arena := { s.arena with bytes := bytes₂ } } := by
      rw [hsame.2 hts] at hrun
      exact compactOne_run_of_stays hrun
    obtain ⟨c', s'', hrun'', hw', hnext, -⟩ := hstep
    rw [hrun'] at hrun''
    cases hrun''
    refine ⟨t, bytes₁, _, hle, hlow, hm₁, hfit, hmin, by rw [if_pos (hsame.2 hts)]; exact hrun', hw', hnext,
      rfl, ⟨_, rfl⟩, ?_, fun k _ => rfl, fun b _ => hbits₂ b⟩
    rw [lookup_of_mem hw.keys_nodup hmem, hsame.2 hts]
  · -- the entry moves, and its bytes follow it
    obtain ⟨hoffTab, -⟩ := g.block_bounds hoc.le htend
    set A : Arena := { s.arena with bytes := bytes₂ } with hA
    have hrun' := hw.compactOne_run_moved hmem c htend hrun (mt hsame.1 hts)
    set m := Memory.copy (BlockStore.space { s with arena := A })
      (.offset (s.arena.blockOffset (Int64.ofNat t)).toInt) 0 (.offset e.offset.toInt) 0
      e.size.toInt with hm
    obtain ⟨c', s'', hrun'', hw', hnext, -⟩ := hstep
    rw [hrun'] at hrun''
    cases hrun''
    refine ⟨t, bytes₁, _, hle, hlow, hm₁, hfit, hmin, by rw [if_neg (mt hsame.1 hts)]; exact hrun', hw', hnext,
      rfl, ⟨_, rfl⟩, ?_, fun k hk => ?_, fun b hb => ?_⟩
    · rw [lookup_put, if_pos rfl, ← hsize]
    · rw [lookup_put, if_neg hk]
    · -- the copy writes past the table, where no block's bit lies
      have hcov := g.table_covers
      have hbyte : Buffer.byteAt m.buffer (b / 8) = Buffer.byteAt A.bytes (b / 8) :=
        Memory.byteAt_copy _ _ _ _ _ _ (.inl (by omega))
      rw [← hbits₂ b]
      unfold Arena.usedBit
      exact congrArg (fun x => (x &&& ((0x80 : UInt8) >>> (b % 8).toUInt8)) != 0) hbyte

end LiveEntry

/-- The entries a compaction moved, read against the store `s'` it left: those recorded there at
    another address than before. -/
def moved (s' : BlockStore) (he : UInt64 × BlockEntry) : Bool :=
  (s'.entries.lookup he.1).map (·.offset) != some he.2.offset

/-- A pass of compaction over distinct live entries of a well-formed store answers and leaves a
    well-formed store. Each entry of the pass is recorded at or below its old address with its
    layout and size, every other entry stays, the arena changes only in its buffer, and the
    counts grow by the entries whose address changed and by their sizes. -/
theorem WellFormed.foldCompact_lowers : ∀ (todo : List (UInt64 × BlockEntry)) (c : Compaction)
    {s : BlockStore}, s.WellFormed → (∀ he ∈ todo, he ∈ s.entries) → (todo.map Prod.fst).Nodup →
    ∃ (c' : Compaction) (s' : BlockStore), (todo.foldlM compactOne c).run s = .ok c' s' ∧
      s'.WellFormed ∧ s'.nextHandle = s.nextHandle ∧ s'.epoch = s.epoch ∧
      (∃ bytes, s'.arena = { s.arena with bytes := bytes }) ∧
      (∀ he ∈ todo, ∃ off, s'.entries.lookup he.1 = some ⟨off, he.2.layout, he.2.size⟩ ∧
        off.toInt ≤ he.2.offset.toInt) ∧
      (∀ k, k ∉ todo.map Prod.fst → s'.entries.lookup k = s.entries.lookup k) ∧
      c'.allocationsMoved = c.allocationsMoved + Int64.ofNat (todo.filter (moved s')).length ∧
      c'.bytesMoved = c.bytesMoved + ((todo.filter (moved s')).map (·.2.size)).sum
  | [], c, s, hw, _, _ => ⟨c, s, rfl, hw, rfl, rfl, ⟨_, rfl⟩, by simp, fun _ _ => rfl,
      by simp [Int64.add_zero], by simp [Int64.add_zero]⟩
  | (h, e) :: todo, c, s, hw, hin, hnd => by
    obtain ⟨t, -, s₁, -, hlow, -, -, -, hrun₁, hw₁, hnext₁, hep₁, ⟨bytes₁, har₁⟩, hat, hothers, -⟩ :=
      hw.compactOne_lowers (hin _ List.mem_cons_self) c
    rw [List.map_cons, List.nodup_cons] at hnd
    -- the rest of the pass finds its entries as they were
    have hin₁ : ∀ he ∈ todo, he ∈ s₁.entries := fun he hm => by
      have hne : he.1 ≠ h := fun heq => hnd.1 (List.mem_map.2 ⟨he, hm, heq⟩)
      apply mem_of_lookup
      rw [hothers _ hne]
      exact lookup_of_mem hw.keys_nodup (hin he (List.mem_cons_of_mem _ hm))
    obtain ⟨c', s', hrun, hw', hnext, hep, ⟨bytes', har'⟩, hall, hkeep, halloc, hbytes⟩ :=
      foldCompact_lowers todo _ hw₁ hin₁ hnd.2
    have hat' : s'.entries.lookup h =
        some ⟨s.arena.blockOffset (Int64.ofNat t), e.layout, e.size⟩ := by
      rw [hkeep h hnd.1, hat]
    refine ⟨c', s', by rw [List.foldlM_cons, Act.run_bind_ok hrun₁]; exact hrun, hw',
      hnext.trans hnext₁, hep.trans hep₁, ⟨bytes', by rw [har', har₁]⟩, ?_, ?_, ?_, ?_⟩
    · intro he hm
      rcases List.mem_cons.1 hm with rfl | hm
      · exact ⟨_, hat', hlow⟩
      · exact hall he hm
    · intro k hk
      rw [List.map_cons, List.mem_cons, not_or] at hk
      rw [hkeep k hk.2, hothers k hk.1]
    -- the entry counts as moved exactly when its address changed
    · by_cases hoff : s.arena.blockOffset (Int64.ofNat t) = e.offset
      · have hm : moved s' (h, e) = false := by simp [moved, hat', hoff]
        rw [if_pos hoff] at halloc
        rw [List.filter_cons_of_neg (by simp [hm]), halloc]
      · have hm : moved s' (h, e) = true := by simp [moved, hat', hoff]
        rw [if_neg hoff] at halloc
        rw [List.filter_cons_of_pos hm, halloc, List.length_cons, Int64.ofNat_add, Int64.add_assoc,
          Int64.add_comm (Int64.ofNat _) (Int64.ofNat 1)]
        rfl
    · by_cases hoff : s.arena.blockOffset (Int64.ofNat t) = e.offset
      · have hm : moved s' (h, e) = false := by simp [moved, hat', hoff]
        rw [if_pos hoff] at hbytes
        rw [List.filter_cons_of_neg (by simp [hm]), hbytes]
      · have hm : moved s' (h, e) = true := by simp [moved, hat', hoff]
        rw [if_neg hoff] at hbytes
        rw [List.filter_cons_of_pos hm, hbytes, List.map_cons, List.sum_cons, Int64.add_assoc]

section Counts

variable {s : BlockStore} (hw : s.WellFormed) (p : UInt64 × BlockEntry → Bool)
include hw

theorem WellFormed.filter_length_lt : (s.entries.filter p).length < 2 ^ 63 := by
  have hcount := hw.allocationCount_eq
  have hlt := s.arena.allocationCount.toInt_lt
  have hle := List.length_filter_le p s.entries
  simp only [count] at hcount
  omega

/-- The sizes of some of the live entries, listed in any order, add up as words to their sum:
    all of them lie in the arena's used blocks. -/
theorem WellFormed.filter_sizes_toInt {l : List (UInt64 × BlockEntry)} (hl : l.Perm s.entries) :
    ((l.filter p).map fun he : UInt64 × BlockEntry => he.2.size).sum.toInt =
      ((s.entries.filter p).map fun he => he.2.size.toInt).sum := by
  have hfp : (l.filter p).Perm (s.entries.filter p) := hl.filter p
  have hnn : ∀ he ∈ s.entries, 0 ≤ he.2.size.toInt := fun he hm => hw.size_nonneg_of_mem hm
  -- the whole sum is the arena's used bytes, a word
  have hall : ((s.entries.filter p).map fun he => he.2.size.toInt).sum ≤
      (s.entries.map fun he => he.2.size.toInt).sum :=
    (List.filter_sublist.map _).sum_le_sum fun x hx => by
      obtain ⟨he, hm, rfl⟩ := List.mem_map.1 hx
      exact hnn he hm
  have hused := hw.allocationBytes_eq
  have hlt := (s.arena.usedBlocks * s.arena.blockSize).toInt_lt
  rw [Word.toInt_sum_of_nonneg, List.map_map, (hfp.map _).sum_eq]
  · rfl
  · intro x hx
    obtain ⟨he, hm, rfl⟩ := List.mem_map.1 hx
    exact hnn he (hl.mem_iff.1 (List.mem_of_mem_filter hm))
  · rw [List.map_map, (hfp.map _).sum_eq]
    exact lt_of_le_of_lt hall (by rw [← hused]; exact hlt)

end Counts

end BlockStore

open BlockStore in
/-- Compaction slides every allocation down and keeps it. On a well-formed store, relocating a
    live entry succeeds, at the first fit at or below the entry's run, which is aligned to its
    layout; so a whole compaction answers and leaves a well-formed store, one epoch later with the
    same handle numbers, in which the same handles are live, each with its layout, its size and
    its bytes, at an address no higher than before. It reports as moved the live handles whose
    address changed, and their sizes as the bytes moved, and the arena's statistics stay. -/
theorem compaction_slides_down :
    (∀ (s : BlockStore) (h : UInt64) (e : BlockEntry), s.WellFormed → (h, e) ∈ s.entries →
      Addr.alignedAt e.offset.toInt e.layout.align = true ∧
      ∃ (t : Nat) (bytes₁ bytes₂ : ByteArray),
        t ≤ (s.arena.runAt e.offset e.size).start ∧
        (s.arena.blockOffset (Int64.ofNat t)).toInt ≤ e.offset.toInt ∧
        s.arena.Marked bytes₁ (s.arena.runAt e.offset e.size).start
          (s.arena.blocksFor e.layout.size).toInt false ∧
        Arena.FitsAt { s.arena with bytes := bytes₁ } (s.arena.blocksFor e.layout.size)
          e.layout.align t ∧
        (∀ v, v < t → ¬Arena.FitsAt { s.arena with bytes := bytes₁ }
          (s.arena.blocksFor e.layout.size) e.layout.align v) ∧
        (Arena.relocate e.offset e.layout).run s.arena =
          .ok (s.arena.blockOffset (Int64.ofNat t),
            s.arena.blocksFor e.layout.size * s.arena.blockSize) { s.arena with bytes := bytes₂ }) ∧
    ∀ s : BlockStore, s.WellFormed →
      ∃ (c : Compaction) (s' : BlockStore), compact.run s = .ok c s' ∧ s'.WellFormed ∧
        s'.epoch = s.epoch + 1 ∧ s'.nextHandle = s.nextHandle ∧
        (∀ k, (∃ e, s'.entries.lookup k = some e) ↔ ∃ e, s.entries.lookup k = some e) ∧
        (∀ k e, (k, e) ∈ s.entries → ∃ e', s'.entries.lookup k = some e' ∧
          e'.layout = e.layout ∧ e'.size = e.size ∧ e'.offset.toInt ≤ e.offset.toInt ∧
          s'.entryBytes e' = s.entryBytes e) ∧
        c.allocationsMoved.toInt = (s.entries.filter (moved s')).length ∧
        c.bytesMoved.toInt = ((s.entries.filter (moved s')).map fun he => he.2.size.toInt).sum ∧
        s'.arena.stats = s.arena.stats := by
  refine ⟨fun s h e hw hmem => ⟨(hw.placed _ hmem).aligned, ?_⟩, fun s hw => ?_⟩
  · obtain ⟨t, bytes₁, bytes₂, hle, hlow, hm₁, hfit, hmin, -, hrun⟩ := hw.relocate_lowers hmem
    exact ⟨t, bytes₁, bytes₂, hle, hlow, hm₁, hfit, hmin, hrun⟩
  obtain ⟨hall, hnd⟩ := hw.byAddress_live
  obtain ⟨c, s', hr, hw', hnext, hep, ⟨bytes, har⟩, hlow, hkeep, halloc, hbytes⟩ :=
    hw.foldCompact_lowers (byAddress s) {} hall hnd
  have hrun := compact_run_of_fold hr
  have hperm : (byAddress s).Perm s.entries :=
    List.mergeSort_perm s.entries fun a b => decide (a.2.offset ≤ b.2.offset)
  have hmoved : ((byAddress s).filter (moved s')).Perm (s.entries.filter (moved s')) :=
    hperm.filter _
  refine ⟨c, _, hrun, hw'.withEpoch _, by rw [hep], hnext, fun k => ?_, fun k e hmem => ?_, ?_, ?_,
    ?_⟩
  · -- the handles of the pass keep an entry; the others keep theirs
    show (∃ e, s'.entries.lookup k = some e) ↔ _
    by_cases hk : k ∈ (byAddress s).map Prod.fst
    · obtain ⟨he, hm, rfl⟩ := List.mem_map.1 hk
      obtain ⟨off, hl, -⟩ := hlow he hm
      exact ⟨fun _ => ⟨_, lookup_of_mem hw.keys_nodup (hall he hm)⟩, fun _ => ⟨_, hl⟩⟩
    · rw [hkeep k hk]
  · obtain ⟨off, hl, hoff⟩ := hlow (k, e) (hperm.mem_iff.2 hmem)
    obtain ⟨e', hm', -, hb'⟩ := hw.compact_carries (k, e) hmem
    rw [Act.leaves_of_ok hrun] at hm' hb'
    have he' : e' = ⟨off, e.layout, e.size⟩ := by
      have hl' := lookup_of_mem hw'.keys_nodup hm'
      rw [hl] at hl'
      exact (Option.some.inj hl').symm
    subst he'
    exact ⟨_, hl, rfl, rfl, hoff, hb'⟩
  · show c.allocationsMoved.toInt = ((s.entries.filter (moved s')).length : Int)
    rw [halloc, Int64.zero_add, ← hmoved.length_eq,
      Int64.toInt_ofNat_of_lt (by rw [hmoved.length_eq]; exact hw.filter_length_lt _)]
  · show c.bytesMoved.toInt = ((s.entries.filter (moved s')).map fun he => he.2.size.toInt).sum
    rw [hbytes, Int64.zero_add, hw.filter_sizes_toInt _ hperm]
  · show Arena.stats s'.arena = _
    rw [har]
    rfl

open BlockStore in
/-- A store of eight blocks of eight bytes with one allocation of 16 bytes compacts, keeping its
    statistics. -/
theorem compaction_after_one_allocation :
    ∃ s₀ : BlockStore, BlockStore.create (.pinned false false) 8 8 0 = .ok s₀ ∧
      ∃ (c : Compaction) (s' : BlockStore),
        compact.run (StoreCall.runAll [.allocate ⟨16, 8⟩] s₀) = .ok c s' ∧
        s'.arena.stats = (StoreCall.runAll [.allocate ⟨16, 8⟩] s₀).arena.stats := by
  let s₀ : BlockStore :=
    { arena := { blockSize := 8, blockCount := 8, managementBlocks := 1, bufferSize := 72,
                 bufferAlign := 8, bytes := Buffer.zeros 72, tableLength := 8 },
      flags := 0 }
  have hcreate : BlockStore.create (.pinned false false) 8 8 0 = .ok s₀ := rfl
  obtain ⟨hw₀, hnext₀⟩ := BlockStore.WellFormed.of_create hcreate
    (by decide) (Parent.pinned_servesAtMost _ _)
  obtain ⟨hw, -, -⟩ := hw₀.runAll [.allocate ⟨16, 8⟩] (by rw [hnext₀]; decide)
    ⟨⟨rfl, by simp only [Arena.Sized]; decide⟩, trivial⟩
  obtain ⟨c, s', hrun, -, -, -, -, -, -, -, hstats⟩ := compaction_slides_down.2 _ hw
  exact ⟨s₀, hcreate, c, s', hrun, hstats⟩

end BlockArena
