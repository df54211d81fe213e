import BlockArena.Proofs.Store.Calls

/-! # Serving a request with enough bytes

A request for a layout is served when the usable size it answers holds the layout and the run
of blocks behind the answer lies in the arena, apart from every other live run, with the count
of used blocks not negative (`Arena.Serves`). When the layout's size rounds up to whole
blocks without overflow (`Arena.Sized`: `size + blockSize - 1` is a word), every
request is served or refused with an allocation error that changes nothing: an allocation and a
growth in place of an arena (`Tracks.alloc_serves`, `Tracks.growInPlace_serves`), and an
allocation and a resize in any form of a block storage (`WellFormed.allocate_serves`,
`WellFormed.resizeWith_serves`). `requests_served_or_refused` gathers the four.

The bound is needed: the block count is rounded up on words, so for a size within a block of
the largest word it wraps below zero. Such a request passes every later guard, marks no block
and is answered with a negative size (`Arena.alloc_of_blocksFor_nonpos`); the largest size
the layout check allows does this on an arena of 64-byte blocks (`alloc_largest_size_wraps`).
-/

set_option autoImplicit false

namespace BlockArena

namespace Arena

/-- A request for `l` served with the run `x` and the usable size `size`, in the arena `a` it
    leaves: the size holds the layout, the run lies in the arena apart from every run of
    `others`, and the count of used blocks is not negative. -/
structure Serves (a : Arena) (others : List Extent) (l : Layout) (x : Extent) (size : Int64) :
    Prop where
  holds : l.size.toInt ≤ size.toInt
  pos : 0 < x.count
  inside : (x.start + x.count : Int) ≤ a.blockCount.toInt
  apart : ∀ y ∈ others, x.Apart y
  usedBlocks_nonneg : 0 ≤ a.usedBlocks.toInt

end Arena

namespace Tracks

variable {a : Arena} {live : List Extent}

theorem serves {x : Extent} (h : Tracks a (x :: live)) {l : Layout} {size : Int64}
    (hl : l.size.toInt ≤ size.toInt) : a.Serves live l x size := by
  obtain ⟨hpos, -, hend⟩ := h.inside x List.mem_cons_self
  have hused : 0 ≤ a.usedBlocks.toInt := by
    rw [h.usedBlocks_eq]
    exact Int.natCast_nonneg _
  exact ⟨hl, hpos, hend, (List.pairwise_cons.1 h.apart).1, hused⟩

/-- Serving a layout whose size rounds up to whole blocks without overflow: the arena refuses
    with an allocation error and stays as it was, or serves the layout from a run apart from
    every live one. -/
theorem alloc_serves (h : Tracks a live) {l : Layout} (hl : a.Sized l) :
    (∃ f, f.Refusal ∧ (Arena.alloc l).run a = .error f a) ∨
      ∃ off size a', (Arena.alloc l).run a = .ok (off, size) a' ∧
        a'.Serves live l (a.runAt off size) size := by
  have g := h.geometry
  have hbs := g.blockSize_pos
  have htr := h.run_alloc hl
  rcases Arena.alloc_cases g hl.1 hl.2 with hf | ⟨t, bytes, hlt, -, -, -, hrun⟩
  · exact .inl hf
  · refine .inr ⟨_, _, _, hrun, ?_⟩
    simp only [Call.run, hrun] at htr
    have hpos := Arena.one_le_blocksFor hbs hl.1 hl.2
    -- the usable size is the whole blocks, which hold the size they were rounded from
    have hsize : (a.blocksFor l.size * a.blockSize).toInt =
        (a.blocksFor l.size).toInt * a.blockSize.toInt := g.blocks_toInt (by omega) (by omega)
    exact htr.serves (by rw [hsize]; exact Arena.size_le_blocksFor_mul hbs hl.1 hl.2)

/-- Growing a live run in place to a layout whose size rounds up without overflow: the arena
    answers that it cannot and stays as it was, or serves the new layout from the run at the
    same address, apart from every other live run. -/
theorem growInPlace_serves (h : Tracks a live) {x : Extent} {old new : Layout} (hx : x ∈ live)
    (hold : (a.blocksFor old.size).toInt = x.count) (hnew : a.Sized new) :
    (Arena.growInPlace (x.addr a) old new).run a = .ok (0, false) a ∨
      ∃ size a', (Arena.growInPlace (x.addr a) old new).run a = .ok (size, true) a' ∧
        a'.Serves (live.erase x) new (a.runAt (x.addr a) size) size := by
  have g := h.geometry
  have hbs := g.blockSize_pos
  obtain ⟨hpos, hlt, hend⟩ := h.inside x hx
  have hs : (x.start : Int) < a.blockCount.toInt := by omega
  have hrun_end : (x.start : Int) + (a.blocksFor old.size).toInt ≤ a.blockCount.toInt := by omega
  have htr := @run_growInPlace a live h x old new hx hold
  have hholds := Arena.size_le_blocksFor_mul hbs hnew.1 hnew.2
  have hnpos := Arena.one_le_blocksFor hbs hnew.1 hnew.2
  rcases @Arena.growInPlace_spec a g x.start old new h.blockCount_room hs hrun_end (by omega) with
    ⟨hle, hrun⟩ | hrun | ⟨-, hnlt, -, -, bytes, -, hrun⟩
  · -- no more blocks asked for: the run as it is holds the new layout
    refine .inr ⟨_, _, hrun, ?_⟩
    simp only [Call.run, Extent.addr, hrun] at htr
    have hsize : (a.blocksFor old.size * a.blockSize).toInt =
        (a.blocksFor old.size).toInt * a.blockSize.toInt := g.blocks_toInt (by omega) (by omega)
    have hmore : (a.blocksFor new.size).toInt * a.blockSize.toInt ≤
        (a.blocksFor old.size).toInt * a.blockSize.toInt := Int.mul_le_mul_of_nonneg_right hle hbs.le
    exact htr.serves (by rw [hsize]; omega)
  · exact .inl hrun
  · -- the run grows into the blocks after it
    refine .inr ⟨_, _, hrun, ?_⟩
    simp only [Call.run, Extent.addr, hrun] at htr
    have hsize : (a.blocksFor new.size * a.blockSize).toInt =
        (a.blocksFor new.size).toInt * a.blockSize.toInt := g.blocks_toInt (by omega) (by omega)
    exact htr.serves (by rw [hsize]; exact hholds)

end Tracks

namespace BlockStore

/-- A live handle's entry is served from its run, apart from the runs of every other entry,
    for any layout the entry's size holds. -/
theorem WellFormed.serves {s : BlockStore} (hw : s.WellFormed) {h : UInt64} {e : BlockEntry}
    (hl : s.entries.lookup h = some e) {l : Layout} (hholds : l.size.toInt ≤ e.size.toInt) :
    s.arena.Serves (s.liveRuns.erase (s.arena.runAt e.offset e.size)) l
      (s.arena.runAt e.offset e.size) e.size :=
  (hw.tracks.perm (List.perm_cons_erase (mem_liveRuns (mem_of_lookup hl)))).serves hholds

/-- Allocating from a well-formed store for a layout whose size rounds up without overflow:
    the store refuses with an allocation error and stays as it was, or records the new handle
    with the layout and a usable size it serves, from a run apart from every live one. -/
theorem WellFormed.allocate_serves {s : BlockStore} (hw : s.WellFormed) {l : Layout}
    (hl : s.arena.Sized l) :
    (∃ f, f.Refusal ∧ (allocate l).run s = .error f s) ∨
      ∃ h n s' off, (allocate l).run s = .ok (h, n) s' ∧
        s'.entries.lookup h = some ⟨off, l, n⟩ ∧
        s'.arena.Serves s.liveRuns l (s.arena.runAt off n) n := by
  rcases hw.tracks.alloc_serves hl with ⟨f, hfr, hf⟩ | ⟨off, size, a', hrun, hserves⟩
  · exact .inl ⟨f, hfr, allocate_run_of_error hf⟩
  · exact .inr ⟨s.nextHandle, size, _, off, allocate_run_of_ok hrun, by simp, hserves⟩

/-- Resizing a live handle of a well-formed store in any form, to a layout whose size rounds up
    without overflow: the store refuses with an allocation error and stays as it was, or the
    handle's entry gets a usable size that serves the new layout, from a run apart from the runs
    of every other entry. -/
theorem WellFormed.resizeWith_serves {s : BlockStore} (hw : s.WellFormed) {form : ResizeForm}
    {h : UInt64} {old new : Layout} {e : BlockEntry} (hl : s.entries.lookup h = some e)
    (hold : s.arena.Sized old) (hnew : s.arena.Sized new)
    (hr : (form.kept old new).Within e.size.toInt new.size.toInt) :
    (∃ f, f.Refusal ∧
        (Storage.resizeWith form h old new : Act BlockStore (UInt64 × Int64)).run s = .error f s) ∨
      ∃ n s' e', (Storage.resizeWith form h old new : Act BlockStore (UInt64 × Int64)).run s =
          .ok (h, n) s' ∧ s'.entries.lookup h = some e' ∧ e'.size = n ∧
        s'.arena.Serves (s'.liveRuns.erase (s'.arena.runAt e'.offset n)) new
          (s'.arena.runAt e'.offset n) n := by
  rcases hw.resizeWith_cases hl hold hnew hr with hf | ⟨n, s', hrun, hres⟩
  · exact .inl hf
  · obtain ⟨e', hl', rfl⟩ := hres.entry
    exact .inr ⟨_, s', e', hrun, hl', rfl, hres.wellFormed.serves hl' hres.holds⟩

end BlockStore

/-- Block rounding never under-allocates a layout `l` whose size rounds up to whole blocks
    without overflow. From an arena that tracks its live runs, an allocation of `l` is refused
    with an allocation error that changes nothing, or served: a usable size that holds `l`, from
    a run inside the arena and apart from every live run, with the count of used blocks not
    negative; growing a live run in place to `l` answers that it cannot and changes nothing, or
    serves `l` the same way. From a well-formed block storage, an allocation of `l` and a resize
    of a live handle to `l` in any of the eight forms are refused likewise, or record an entry
    whose size serves `l` from a run apart from every other entry's. -/
theorem requests_served_or_refused {a : Arena} {live : List Extent} (ha : Tracks a live)
    {s : BlockStore} (hs : s.WellFormed) {l : Layout} (hla : a.Sized l) (hls : s.arena.Sized l) :
    ((∃ f, f.Refusal ∧ (Arena.alloc l).run a = .error f a) ∨
      ∃ off size a', (Arena.alloc l).run a = .ok (off, size) a' ∧
        a'.Serves live l (a.runAt off size) size) ∧
    (∀ x ∈ live, ∀ old : Layout, (a.blocksFor old.size).toInt = x.count →
      (Arena.growInPlace (x.addr a) old l).run a = .ok (0, false) a ∨
        ∃ size a', (Arena.growInPlace (x.addr a) old l).run a = .ok (size, true) a' ∧
          a'.Serves (live.erase x) l (a.runAt (x.addr a) size) size) ∧
    ((∃ f, f.Refusal ∧ (BlockStore.allocate l).run s = .error f s) ∨
      ∃ h n s' off, (BlockStore.allocate l).run s = .ok (h, n) s' ∧
        s'.entries.lookup h = some ⟨off, l, n⟩ ∧
        s'.arena.Serves s.liveRuns l (s.arena.runAt off n) n) ∧
    (∀ (form : ResizeForm) (h : UInt64) (old : Layout) (e : BlockEntry),
      s.entries.lookup h = some e → s.arena.Sized old →
      (form.kept old l).Within e.size.toInt l.size.toInt →
      (∃ f, f.Refusal ∧
          (Storage.resizeWith form h old l : Act BlockStore (UInt64 × Int64)).run s = .error f s) ∨
        ∃ n s' e', (Storage.resizeWith form h old l : Act BlockStore (UInt64 × Int64)).run s =
            .ok (h, n) s' ∧ s'.entries.lookup h = some e' ∧ e'.size = n ∧
          s'.arena.Serves (s'.liveRuns.erase (s'.arena.runAt e'.offset n)) l
            (s'.arena.runAt e'.offset n) n) :=
  ⟨ha.alloc_serves hla, fun _ hx _ hold => ha.growInPlace_serves hx hold hla,
    hs.allocate_serves hls, fun _ _ _ _ hl hold hr => hs.resizeWith_serves hl hold hls hr⟩

/-- A new arena of eight blocks of eight bytes, with no live run, and a new store over the same
    arena, each asked for 16 bytes. -/
theorem requests_served_or_refused_new :
    ∃ a, Arena.create true 72 8 8 8 = .ok a ∧ Arena.Sized a ⟨16, 8⟩ ∧
      ((∃ f, f.Refusal ∧ (Arena.alloc ⟨16, 8⟩).run a = .error f a) ∨
        ∃ off size a', (Arena.alloc ⟨16, 8⟩).run a = .ok (off, size) a' ∧
          a'.Serves [] ⟨16, 8⟩ (a.runAt off size) size) ∧
      ((∃ f, f.Refusal ∧ (BlockStore.allocate ⟨16, 8⟩).run { arena := a, flags := 0 } =
          .error f { arena := a, flags := 0 }) ∨
        ∃ h n s' off, (BlockStore.allocate ⟨16, 8⟩).run { arena := a, flags := 0 } = .ok (h, n) s' ∧
          s'.entries.lookup h = some ⟨off, ⟨16, 8⟩, n⟩ ∧
          s'.arena.Serves (BlockStore.liveRuns { arena := a, flags := 0 }) ⟨16, 8⟩
            (a.runAt off n) n) := by
  let a : Arena :=
    { blockSize := 8
      blockCount := 8
      managementBlocks := 1
      bufferSize := 72
      bufferAlign := 8
      bytes := Buffer.zeros 72
      tableLength := 8 }
  have ha : Arena.create true 72 8 8 8 = .ok a := rfl
  have hs : BlockStore.create (.pinned false false) 8 8 0 = .ok { arena := a, flags := 0 } := rfl
  have hl : a.Sized ⟨16, 8⟩ := by
    simp only [a, Arena.Sized]
    decide
  obtain ⟨hall, -, hallocate, -⟩ := requests_served_or_refused
    (Tracks.of_create ha (by decide) (by decide))
    (BlockStore.WellFormed.of_create hs (by decide) (Parent.pinned_servesAtMost _ _)).1 hl hl
  exact ⟨a, ha, hl, hall, hallocate⟩

/-! ## When the block count wraps -/

namespace Arena

/-- A request whose block count wraps to zero or below passes every later guard when the first
    block is aligned for it: it is answered at the first block with the wrapped count times the
    block size, marks no block, and adds the wrapped count to the used blocks. -/
theorem alloc_of_blocksFor_nonpos {a : Arena} {l : Layout} (hcheck : l.check = .ok ())
    (hneed : (a.blocksFor l.size).toInt ≤ 0) (hcount : 0 < a.blockCount.toInt)
    (hal : a.blockAligned 0 l.align = true) :
    (alloc l).run a = .ok (a.blockOffset 0, a.blocksFor l.size * a.blockSize)
      { a with allocationCount := a.allocationCount + 1,
               usedBlocks := a.usedBlocks + a.blocksFor l.size } := by
  have h0 : Int64.ofNat 0 = 0 := rfl
  have hbig : ¬a.blockCount ≤ a.blocksFor l.size := fun h => by
    have := Int64.le_iff_toInt_le.1 h
    omega
  have hfit : a.firstFit (a.blocksFor l.size) l.align = .ok (some 0) := by
    have hout : ¬a.blockCount < Int64.ofNat 0 + a.blocksFor l.size := fun h => by
      rw [h0, Int64.zero_add] at h
      have := Int64.lt_iff_toInt_lt.1 h
      omega
    rw [firstFit, firstFitFrom, dif_neg (by decide), if_neg hout, h0, if_neg (by simp [hal]),
      runFree_of_nonpos _ hneed]
  exact alloc_run_of_fit hcheck hbig hfit (markRun_of_nonpos _ _ hneed)

end Arena

/-- With 64-byte blocks, a request for the largest size passes the layout check, yet its block
    count wraps below zero: the arena answers at its first block with a negative size, counts a
    negative number of used blocks, and marks no block. -/
theorem alloc_largest_size_wraps :
    Layout.check ⟨Word.maxInt, 1⟩ = .ok () ∧
    ∃ a, Arena.create true 1088 8 64 16 = .ok a ∧
      (Arena.alloc ⟨Word.maxInt, 1⟩).run a = .ok (64, -9223372036854775744)
        { a with allocationCount := 1, usedBlocks := -144115188075855871 } := by
  refine ⟨rfl, _, rfl, ?_⟩
  rw [Arena.alloc_of_blocksFor_nonpos rfl (by decide) (by decide) (by decide)]
  rfl

end BlockArena
