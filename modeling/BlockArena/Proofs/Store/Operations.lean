import BlockArena.Proofs.Store.Invariant

/-! # Every storage operation keeps a block storage well formed

Each operation of a block storage, run on a well-formed store with valid layouts and, for a
resize, a region that fits, leaves a well-formed store, whether it answers or fails, and takes
at most one new handle number (`Follows`). An allocation records a fresh handle; freeing drops
one entry; a resize replaces the entry in place, or moves it to a new run and copies the kept
region; compaction moves entries one at a time towards the start of the arena.
-/

set_option autoImplicit false

namespace BlockArena

namespace BlockStore

/-! ## Freeing a handle -/

theorem WellFormed.deallocate_run {s : BlockStore} (hw : s.WellFormed) {h : UInt64}
    {e : BlockEntry} (hl : s.entries.lookup h = some e) (l : Layout) :
    ∃ s', (BlockStore.deallocate h l).run s = .ok () s' ∧ Follows s s' := by
  have g := hw.geometry
  have hmem := mem_of_lookup hl
  have hx := mem_liveRuns hmem
  have hcount := hw.count_eq hmem
  obtain ⟨hpos, -, hend⟩ := hw.tracks.inside _ hx
  have hs : ((s.arena.runAt e.offset e.size).start : Int) < s.arena.blockCount.toInt := by
    omega
  have hrun_end : ((s.arena.runAt e.offset e.size).start : Int) +
      (s.arena.blocksFor e.layout.size).toInt ≤ s.arena.blockCount.toInt := by omega
  obtain ⟨bytes, -, hrun⟩ := Arena.dealloc_spec g hs hrun_end
  have htr := hw.tracks.run_dealloc hx hcount.symm
  simp only [Call.run, Extent.addr, hrun] at htr
  have hoff := hw.blockOffset_start hmem
  rw [hoff] at hrun
  have hstore : (BlockStore.deallocate h l).run s = .ok ()
      { s with
        arena := { s.arena with
          bytes := bytes
          allocationCount := s.arena.allocationCount - 1
          usedBlocks := s.arena.usedBlocks - s.arena.blocksFor e.layout.size }
        entries := s.entries.filter (·.1 != h)
        epoch := s.epoch + 1 } := by
    simp only [BlockStore.deallocate, EStateM.run, bind, EStateM.bind]
    rw [show lookup h s = (lookup h).run s from rfl, lookup_run_of_some hl]
    simp only [onArena, Act.focus, bump, modify, modifyGet, MonadStateOf.modifyGet,
      EStateM.modifyGet]
    rw [show Arena.dealloc e.offset e.layout s.arena =
      (Arena.dealloc e.offset e.layout).run s.arena from rfl, hrun]
  exact ⟨_, hstore, hw.drop rfl rfl rfl (htr.perm (hw.liveRuns_erase hmem)), le_rfl,
    Nat.le_succ _⟩

/-- Freeing a live handle frees its run as its entry records it and drops the entry; any other
    handle changes nothing. -/
theorem WellFormed.deallocate_step {s : BlockStore} (hw : s.WellFormed) (h : UInt64)
    (l : Layout) : Follows s (Act.leaves (BlockStore.deallocate h l) s) := by
  cases hl : s.entries.lookup h with
  | none =>
    have hrun : (deallocate h l).run s = .error (.handleNotLive h) s := by
      simp only [BlockStore.deallocate, EStateM.run, bind, EStateM.bind]
      rw [show lookup h s = (lookup h).run s from rfl, lookup_run_of_none hl]
    rw [Act.leaves_of_error hrun]
    exact hw.follows_self
  | some e =>
    obtain ⟨s', hrun, hf⟩ := hw.deallocate_run hl l
    rw [Act.leaves_of_ok hrun]
    exact hf

/-! ## Allocating -/

/-- Allocating for a layout whose size rounds up to blocks without overflow, while handle
    numbers are left: a refusal changes nothing, and a success records the new handle's entry. -/
theorem WellFormed.allocate_step {s : BlockStore} (hw : s.WellFormed) {l : Layout}
    (hl : s.arena.Sized l) (hroom : s.nextHandle.toNat + 1 < 2 ^ 64) :
    (∃ f, f.Refusal ∧ (BlockStore.allocate l).run s = .error f s) ∨
      ∃ (e : BlockEntry) (s' : BlockStore),
        (BlockStore.allocate l).run s = .ok (s.nextHandle, e.size) s' ∧ s'.WellFormed ∧
          s'.entries.lookup s.nextHandle = some e ∧
          s'.nextHandle.toNat = s.nextHandle.toNat + 1 := by
  have g := hw.geometry
  rcases Arena.alloc_cases g hl.1 hl.2 with ⟨f, hfr, hf⟩ | ⟨t, bytes, hlt, hfit, -, -, hrun⟩
  · exact .inl ⟨f, hfr, allocate_run_of_error hf⟩
  · have hpos := Arena.one_le_blocksFor g.blockSize_pos hl.1 hl.2
    have hend : (t : Int) + (s.arena.blocksFor l.size).toInt ≤ s.arena.blockCount.toInt := hfit.1
    have htr := hw.tracks.run_alloc hl
    simp only [Call.run, hrun] at htr
    have hnext : (s.nextHandle + 1).toNat = s.nextHandle.toNat + 1 := by
      rw [UInt64.toNat_add, UInt64.toNat_one, Nat.mod_eq_of_lt hroom]
    refine .inr ⟨⟨s.arena.blockOffset (Int64.ofNat t), l,
      s.arena.blocksFor l.size * s.arena.blockSize⟩,
      { s with
        arena := { s.arena with
          bytes := bytes
          allocationCount := s.arena.allocationCount + 1
          usedBlocks := s.arena.usedBlocks + s.arena.blocksFor l.size }
        nextHandle := s.nextHandle + 1
        entries := (s.nextHandle, ⟨s.arena.blockOffset (Int64.ofNat t), l,
          s.arena.blocksFor l.size * s.arena.blockSize⟩) ::
            s.entries.filter (·.1 != s.nextHandle)
        epoch := s.epoch + 1 }, allocate_run_of_ok hrun, ?_, ?_, hnext⟩
    · refine hw.replace rfl rfl (by dsimp only; omega) hw.nextHandle_pos (by dsimp only; omega)
        ?_ (g.placed_at (by omega) hend rfl ((g.blockAligned_eq _ _).symm.trans hfit.2.1))
      rw [hw.filter_fresh]
      exact htr
    · simp

/-- Allocating and clearing every usable byte: a refusal changes nothing, and otherwise the
    clear stays inside the new allocation. -/
theorem WellFormed.allocateZeroed_cases {s : BlockStore} (hw : s.WellFormed) {l : Layout}
    (hl : s.arena.Sized l) (hroom : s.nextHandle.toNat + 1 < 2 ^ 64) :
    (∃ f, f.Refusal ∧
      (Storage.allocateZeroed l : Act BlockStore (UInt64 × Int64)).run s = .error f s) ∨
    ∃ r s'', (Storage.allocateZeroed l : Act BlockStore (UInt64 × Int64)).run s = .ok r s'' ∧
      Follows s s'' := by
  rcases hw.allocate_step hl hroom with ⟨f, hfr, hf⟩ | ⟨e, s', hrun, hw', hlook, hnext⟩
  · refine .inl ⟨f, hfr, ?_⟩
    simp only [Storage.allocateZeroed, EStateM.run, bind, EStateM.bind]
    rw [show Storage.allocate l s = (BlockStore.allocate l).run s from rfl, hf]
  · have hmem := mem_of_lookup hlook
    obtain ⟨htab, hend⟩ := hw'.entry_bounds hmem
    have hsize := hw'.size_nonneg_of_mem hmem
    have hdangling : (s.nextHandle = danglingHandle) = False := by
      have := hw.nextHandle_pos
      simp only [danglingHandle, eq_iff_iff, iff_false]
      intro h0
      rw [h0] at this
      exact absurd this (by decide)
    have hclear : Memory.clear s'.space (.offset e.offset.toInt) 0 e.size =
        .ok (if e.size ≤ 0 then s'.space
          else s'.space.fill0 (e.offset.toInt + (0 : Int64).toInt) (e.offset.toInt + e.size.toInt)) :=
      Memory.clear_offset _ (by omega) (by decide) (by have := s'.arena.bufferSize.toInt_lt; omega)
    have hz : (Storage.allocateZeroed l : Act BlockStore (UInt64 × Int64)).run s =
        .ok (s.nextHandle, e.size) (s'.withSpace (if e.size ≤ 0 then s'.space
          else s'.space.fill0 (e.offset.toInt + (0 : Int64).toInt) (e.offset.toInt + e.size.toInt))) := by
      simp only [Storage.allocateZeroed, EStateM.run, bind, EStateM.bind]
      rw [show Storage.allocate l s = (BlockStore.allocate l).run s from rfl, hrun]
      simp only [Storage.resolve, resolve, hdangling, ite_false, EStateM.bind, bind, pure,
        EStateM.pure]
      rw [show lookup s.nextHandle s' = (lookup s.nextHandle).run s' from rfl,
        lookup_run_of_some hlook]
      simp only [Storage.zero, Storage.memory, Storage.setMemory, bind, EStateM.bind, get,
        getThe, MonadStateOf.get, EStateM.get, Act.ofExcept, hclear, pure, EStateM.pure, modify,
        modifyGet, MonadStateOf.modifyGet, EStateM.modifyGet]
    refine .inr ⟨_, _, hz, ?_, show _ ≤ s'.nextHandle.toNat by omega,
      show s'.nextHandle.toNat ≤ _ by omega⟩
    split
    · exact hw'.withSpace (by rfl) fun _ _ => rfl
    · exact hw'.withSpace_fill0 (by simp only [Int64.toInt_zero]; omega) _

theorem WellFormed.allocateZeroed_step {s : BlockStore} (hw : s.WellFormed) {l : Layout}
    (hl : s.arena.Sized l) (hroom : s.nextHandle.toNat + 1 < 2 ^ 64) :
    Follows s (Act.leaves (Storage.allocateZeroed l : Act BlockStore (UInt64 × Int64)) s) := by
  rcases hw.allocateZeroed_cases hl hroom with ⟨f, -, hz⟩ | ⟨r, s'', hz, hf⟩
  · rw [Act.leaves_of_error hz]
    exact hw.follows_self
  · rw [Act.leaves_of_ok hz]
    exact hf

/-! ## Resizing -/

/-- What a successful resize of handle `h` to `new` leaves: a well-formed store with the same
    handle numbers, in which `h` names an entry of size `n` that holds the new layout, over the
    same arena but for its buffer and counters. -/
structure Resized (s s' : BlockStore) (h : UInt64) (new : Layout) (n : Int64) : Prop where
  wellFormed : s'.WellFormed
  nextHandle_eq : s'.nextHandle = s.nextHandle
  entry : ∃ e', s'.entries.lookup h = some e' ∧ e'.size = n
  holds : new.size.toInt ≤ n.toInt
  arena_eq : ∃ (bytes : ByteArray) (count used : Int64),
    s'.arena = { s.arena with bytes := bytes, allocationCount := count, usedBlocks := used }

theorem Resized.withSpace {s s' : BlockStore} {h : UInt64} {new : Layout} {n : Int64}
    (hr : Resized s s' h new n) {m : Space} (hw : (s'.withSpace m).WellFormed) :
    Resized s (s'.withSpace m) h new n := by
  obtain ⟨bytes, count, used, harena⟩ := hr.arena_eq
  refine ⟨hw, hr.nextHandle_eq, hr.entry, hr.holds, m.buffer, count, used, ?_⟩
  show { s'.arena with bytes := m.buffer } = _
  rw [harena]

/-- What a resize leaves is judged against the handle numbers and the arena of the store it
    started from, which may differ from `s` in its buffer only. -/
theorem Resized.of_nextHandle {s₀ s s' : BlockStore} {h : UInt64} {new : Layout} {n : Int64}
    (hr : Resized s₀ s' h new n) (hnext : s₀.nextHandle = s.nextHandle)
    (harena₀ : ∃ bytes : ByteArray, s₀.arena = { s.arena with bytes := bytes }) :
    Resized s s' h new n := by
  obtain ⟨bytes, count, used, harena⟩ := hr.arena_eq
  obtain ⟨bytes₀, h₀⟩ := harena₀
  refine ⟨hr.wellFormed, hr.nextHandle_eq.trans hnext, hr.entry, hr.holds, bytes, count, used, ?_⟩
  rw [harena, h₀]

/-- A store whose entry of live handle `h` is replaced as `replace` says is what a resize to
    `new` leaves, when the new entry holds `new`. -/
theorem WellFormed.resized {s s' : BlockStore} (hw : s.WellFormed) {h : UInt64}
    {e : BlockEntry} (hmem : (h, e) ∈ s.entries) (e' : BlockEntry) {new : Layout}
    {bytes : ByteArray} {count used : Int64}
    (harena : s'.arena = { s.arena with bytes := bytes, allocationCount := count, usedBlocks := used })
    (hentries : s'.entries = (h, e') :: s.entries.filter (·.1 != h))
    (hnext : s'.nextHandle = s.nextHandle)
    (ht : Tracks s'.arena (s.arena.runAt e'.offset e'.size ::
      (s.entries.filter (·.1 != h)).map fun he => s.arena.runAt he.2.offset he.2.size))
    (hp : e'.Placed s.arena) (hholds : new.size.toInt ≤ e'.size.toInt) :
    Resized s s' h new e'.size where
  wellFormed := hw.replace harena hentries (by rw [hnext]) (hw.handle_pos _ hmem)
    (by rw [hnext]; exact hw.handle_lt _ hmem) ht hp
  nextHandle_eq := hnext
  entry := ⟨e', by rw [hentries]; simp, rfl⟩
  holds := hholds
  arena_eq := ⟨bytes, count, used, harena⟩

/-- Resizing a live entry by moving it, when it may not be resized in place or growing it in
    place finds no room: the storage allocates anew, copies the kept region, frees the old
    blocks and records the new entry under the same handle. Only the allocation can fail, and
    then nothing has changed. -/
theorem WellFormed.resize_relocating {s : BlockStore} (hw : s.WellFormed) {grow : Bool}
    {h : UInt64} {old new : Layout} {r : Region} {e : BlockEntry}
    (hl : s.entries.lookup h = some e) (hnew : s.arena.Sized new)
    (hr : r.Within e.size.toInt new.size.toInt)
    (hpath : resizesInPlace s e new = false ∨ (resizesInPlace s e new = true ∧
      e.size < new.size ∧
      (Arena.growInPlace e.offset e.layout new).run s.arena = .ok (0, false) s.arena)) :
    (∃ f, f.Refusal ∧ (BlockStore.resize grow h old new r).run s = .error f s) ∨
      ∃ s' : BlockStore, (BlockStore.resize grow h old new r).run s =
          .ok (h, s.arena.blocksFor new.size * s.arena.blockSize) s' ∧
        Resized s s' h new (s.arena.blocksFor new.size * s.arena.blockSize) := by
  have g := hw.geometry
  have hmem := mem_of_lookup hl
  have hp := hw.placed _ hmem
  have hlook : lookup h s = .ok e s := lookup_run_of_some hl
  obtain ⟨hr0, hr1, hr2, hr3, hr4⟩ := hr
  obtain ⟨htab, hend⟩ := hw.entry_bounds hmem
  obtain ⟨hpos, hcount, hrunend⟩ := hw.run_inside hmem
  have hword := s.arena.bufferSize.toInt_lt
  rcases hw.alloc_cases hnew with ⟨f, hfr, hf⟩ | ⟨t, b₁, hfit, hal, hfree, hrun₁, htr₁⟩
  · refine .inl ⟨f, hfr, ?_⟩
    simp only [EStateM.run] at hf
    rcases hpath with hA | ⟨hA, hlt, hgrow⟩
    · simp only [BlockStore.resize, EStateM.run, bind, EStateM.bind, get, getThe,
        MonadStateOf.get, EStateM.get, hlook, hA, Bool.false_eq_true, ite_false, pure,
        EStateM.pure, onArena, Act.focus, hf]
    · simp only [EStateM.run] at hgrow
      simp only [BlockStore.resize, EStateM.run, bind, EStateM.bind, get, getThe,
        MonadStateOf.get, EStateM.get, hlook, hA, ite_true, hlt, onArena, Act.focus, hgrow,
        Bool.false_eq_true, ite_false, pure, EStateM.pure, hf]
  · have hncpos := Arena.one_le_blocksFor g.blockSize_pos hnew.1 hnew.2
    have hholds := Arena.size_le_blocksFor_mul g.blockSize_pos hnew.1 hnew.2
    have hnInt : (s.arena.blocksFor new.size * s.arena.blockSize).toInt =
        (s.arena.blocksFor new.size).toInt * s.arena.blockSize.toInt :=
      g.blocks_toInt (by omega) (by omega)
    obtain ⟨hoffTab, hoffEnd⟩ := g.block_bounds (by omega) hfit
    set a₁ : Arena := { s.arena with
      bytes := b₁
      allocationCount := s.arena.allocationCount + 1
      usedBlocks := s.arena.usedBlocks + s.arena.blocksFor new.size } with ha₁
    have hmove := @moveRegion_run { s with arena := a₁ } (s.arena.blockOffset (Int64.ofNat t))
      e.offset r hr2 (by omega) (by omega) (by omega) (by omega)
    simp only [EStateM.run] at hmove hrun₁
    set m := Memory.copy (BlockStore.space { s with arena := a₁ })
      (.offset (s.arena.blockOffset (Int64.ofNat t)).toInt) r.dst.toInt (.offset e.offset.toInt)
      r.src.toInt r.size.toInt with hm
    have hsize : m.buffer.size = a₁.bytes.size := Memory.size_copy _ _ _ _ _ _
    have htr₂ := htr₁.withBytes hsize fun k hk => by
      have hk' : k < s.arena.tableLength := hk
      rw [hm]
      exact Memory.byteAt_copy _ _ _ _ _ _ (.inl (by omega))
    clear_value m
    have hcount' : (s.arena.blocksFor e.layout.size).toInt =
        (s.arena.runAt e.offset e.size).count := hcount.symm
    obtain ⟨b₃, hrun₃, htr₃⟩ := htr₂.dealloc_ok (List.mem_cons_of_mem _ (mem_liveRuns hmem)) hcount'
    have hxaddr : (s.arena.runAt e.offset e.size).addr { a₁ with bytes := m.buffer } = e.offset :=
      hp.offset_eq
    simp only [EStateM.run] at hrun₃
    rw [hxaddr] at hrun₃
    -- the new run is not the old one: its first block was free
    have hne : s.arena.runAt (s.arena.blockOffset (Int64.ofNat t))
        (s.arena.blocksFor new.size * s.arena.blockSize) ≠ s.arena.runAt e.offset e.size := by
      rw [g.runAt_blockOffset (by omega) (by omega) (by omega)]
      intro heq
      have hcov : (s.arena.runAt e.offset e.size).Covers t := by
        rw [← heq]
        dsimp only [Extent.Covers]
        omega
      have hused := hw.tracks.usedBit_of_covers (mem_liveRuns hmem) hcov
      rw [hfree t le_rfl (by omega)] at hused
      exact Bool.false_ne_true hused
    rw [List.erase_cons_tail (by simpa using hne)] at htr₃
    have htr₄ := htr₃.perm (List.Perm.cons _ (hw.liveRuns_erase hmem))
    have hplaced := g.placed_at hncpos hfit rfl hal
    have hsizeInt : new.size.toInt ≤ (s.arena.blocksFor new.size * s.arena.blockSize).toInt := by
      rw [hnInt]
      exact hholds
    rcases hpath with hA | ⟨hA, hlt, hgrow⟩
    · refine .inr ⟨?s', ?run, ?resized⟩
      case run =>
        simp only [BlockStore.resize, EStateM.run, bind, EStateM.bind, get, getThe,
          MonadStateOf.get, EStateM.get, hlook, hA, Bool.false_eq_true, ite_false, pure,
          EStateM.pure, onArena, Act.focus, hrun₁, hmove, BlockStore.withSpace, hrun₃, put, bump,
          modify, modifyGet, MonadStateOf.modifyGet, EStateM.modifyGet]
        rfl
      case resized => exact hw.resized hmem ⟨s.arena.blockOffset (Int64.ofNat t), new,
          s.arena.blocksFor new.size * s.arena.blockSize⟩ rfl rfl rfl htr₄ hplaced hsizeInt
    · simp only [EStateM.run] at hgrow
      refine .inr ⟨?s', ?run, ?resized⟩
      case run =>
        simp only [BlockStore.resize, EStateM.run, bind, EStateM.bind, get, getThe,
          MonadStateOf.get, EStateM.get, hlook, hA, ite_true, hlt, onArena, Act.focus, hgrow,
          Bool.false_eq_true, ite_false, pure, EStateM.pure, hrun₁, hmove, BlockStore.withSpace,
          hrun₃, put, bump, modify, modifyGet, MonadStateOf.modifyGet, EStateM.modifyGet]
      case resized => exact hw.resized hmem ⟨s.arena.blockOffset (Int64.ofNat t), new,
          s.arena.blocksFor new.size * s.arena.blockSize⟩ rfl rfl rfl htr₄ hplaced hsizeInt

/-- An entry resized in place keeps its offset and records the new layout with the size of the
    `c` blocks its run now has. -/
theorem WellFormed.placed_inPlace {s : BlockStore} (hw : s.WellFormed) {h : UInt64}
    {e : BlockEntry} (hmem : (h, e) ∈ s.entries) {new : Layout} {c : Int64} (hc : 0 < c.toInt)
    (hend : ((s.arena.runAt e.offset e.size).start : Int) + c.toInt ≤ s.arena.blockCount.toInt)
    (hA : resizesInPlace s e new = true) :
    BlockEntry.Placed s.arena
      ⟨e.offset, new.withSize (c * s.arena.blockSize), c * s.arena.blockSize⟩ := by
  have g := hw.geometry
  have hoff := hw.blockOffset_start hmem
  have hal : Addr.alignedAt e.offset.toInt new.align = true := by
    simp only [resizesInPlace, Bool.and_eq_true] at hA
    exact hA.2
  have hp := g.placed_at hc hend (g.blocksFor_blocks hc (by omega))
    (by rw [hoff]; exact hal : Addr.alignedAt _ (new.withSize (c * s.arena.blockSize)).align = true)
  rw [hoff] at hp
  exact hp

/-- Resizing a live entry in place when it grows and the blocks after it are free: the arena
    extends the run, the kept region is copied within it, and the entry keeps its offset. -/
theorem WellFormed.resize_grown {s : BlockStore} (hw : s.WellFormed) {grow : Bool}
    {h : UInt64} {old new : Layout} {r : Region} {e : BlockEntry}
    (hl : s.entries.lookup h = some e) (hnew : s.arena.Sized new)
    (hr : r.Within e.size.toInt new.size.toInt) (hA : resizesInPlace s e new = true)
    (hlt : e.size < new.size) {c : Int64} {bytes : ByteArray} {u : Int64}
    (hnc : (s.arena.blocksFor new.size).toInt ≤ c.toInt)
    (hcend : ((s.arena.runAt e.offset e.size).start : Int) + c.toInt ≤ s.arena.blockCount.toInt)
    (hgrow : (Arena.growInPlace e.offset e.layout new).run s.arena =
      .ok (c * s.arena.blockSize, true) { s.arena with bytes := bytes, usedBlocks := u })
    (htr : Tracks { s.arena with bytes := bytes, usedBlocks := u }
      (s.arena.runAt e.offset (c * s.arena.blockSize) ::
        s.liveRuns.erase (s.arena.runAt e.offset e.size))) :
    ∃ s', (BlockStore.resize grow h old new r).run s = .ok (h, c * s.arena.blockSize) s' ∧
      Resized s s' h new (c * s.arena.blockSize) := by
  have g := hw.geometry
  have hmem := mem_of_lookup hl
  have hlook : lookup h s = .ok e s := lookup_run_of_some hl
  obtain ⟨hr0, hr1, hr2, hr3, hr4⟩ := hr
  obtain ⟨htab, hend⟩ := hw.entry_bounds hmem
  have hncpos := Arena.one_le_blocksFor g.blockSize_pos hnew.1 hnew.2
  have hholds := Arena.size_le_blocksFor_mul g.blockSize_pos hnew.1 hnew.2
  have hcInt : (c * s.arena.blockSize).toInt = c.toInt * s.arena.blockSize.toInt :=
    g.blocks_toInt (by omega) (by omega)
  have hle : (s.arena.blocksFor new.size).toInt * s.arena.blockSize.toInt ≤
      c.toInt * s.arena.blockSize.toInt :=
    Int.mul_le_mul_of_nonneg_right hnc g.blockSize_pos.le
  have hoff := hw.blockOffset_start hmem
  have hb := g.block_bounds (by omega) hcend
  rw [hoff] at hb
  have hword := s.arena.bufferSize.toInt_lt
  set a₁ : Arena := { s.arena with bytes := bytes, usedBlocks := u } with ha₁
  have hmove := @moveRegion_run { s with arena := a₁ } e.offset e.offset r hr2 (by omega)
    (by omega) (by omega) (by omega)
  simp only [EStateM.run] at hmove hgrow
  set m := Memory.copy (BlockStore.space { s with arena := a₁ }) (.offset e.offset.toInt)
    r.dst.toInt (.offset e.offset.toInt) r.src.toInt r.size.toInt with hm
  have hsize : m.buffer.size = bytes.size := Memory.size_copy _ _ _ _ _ _
  have htr₂ := htr.withBytes hsize fun k hk => by
    have hk' : k < s.arena.tableLength := hk
    rw [hm]
    exact Memory.byteAt_copy _ _ _ _ _ _ (.inl (by omega))
  clear_value m
  refine ⟨?s', ?run, ?resized⟩
  case run =>
    simp only [BlockStore.resize, EStateM.run, bind, EStateM.bind, get, getThe,
      MonadStateOf.get, EStateM.get, hlook, hA, ite_true, hlt, onArena, Act.focus, hgrow, hmove,
      BlockStore.withSpace, pure, EStateM.pure, put, bump, modify, modifyGet,
      MonadStateOf.modifyGet, EStateM.modifyGet]
    rfl
  case resized =>
    exact hw.resized hmem ⟨e.offset, new.withSize (c * s.arena.blockSize), c * s.arena.blockSize⟩
      rfl rfl rfl (htr₂.perm (List.Perm.cons _ (hw.liveRuns_erase hmem)))
      (hw.placed_inPlace hmem (by omega) hcend hA) (by rw [hcInt]; omega)

/-- Resizing a live entry in place when it does not grow: the kept region is copied within the
    run first, then the arena gives back the blocks the new layout no longer needs. -/
theorem WellFormed.resize_shrunk {s : BlockStore} (hw : s.WellFormed) {grow : Bool}
    {h : UInt64} {old new : Layout} {r : Region} {e : BlockEntry}
    (hl : s.entries.lookup h = some e) (hnew : s.arena.Sized new)
    (hr : r.Within e.size.toInt new.size.toInt) (hA : resizesInPlace s e new = true)
    (hge : ¬e.size < new.size) :
    ∃ s' : BlockStore, (BlockStore.resize grow h old new r).run s =
        .ok (h, s.arena.blocksFor new.size * s.arena.blockSize) s' ∧
      Resized s s' h new (s.arena.blocksFor new.size * s.arena.blockSize) := by
  have hmem := mem_of_lookup hl
  have hlook : lookup h s = .ok e s := lookup_run_of_some hl
  obtain ⟨hr0, hr1, hr2, hr3, hr4⟩ := hr
  obtain ⟨htab, hend⟩ := hw.entry_bounds hmem
  have hfit : new.size.toInt ≤ e.size.toInt := by
    have := mt Int64.lt_iff_toInt_lt.2 hge
    omega
  have hword := s.arena.bufferSize.toInt_lt
  have hmove := @moveRegion_run s e.offset e.offset r hr2 (by omega) (by omega) (by omega)
    (by omega)
  simp only [EStateM.run] at hmove
  set m := Memory.copy s.space (.offset e.offset.toInt) r.dst.toInt (.offset e.offset.toInt)
    r.src.toInt r.size.toInt with hm
  have hw₁ : (s.withSpace m).WellFormed := hw.withSpace_copy (by omega) _ _ _
  clear_value m
  have hmem₁ : (h, e) ∈ (s.withSpace m).entries := hmem
  obtain ⟨c, bytes, u, hc, hholds, hcend, hshrink, htr⟩ :=
    hw₁.shrinkInPlace_cases hmem₁ hnew hfit
  simp only [EStateM.run] at hshrink
  have hcend' : ((s.arena.runAt e.offset e.size).start : Int) + c.toInt ≤
      s.arena.blockCount.toInt := hcend
  have hcInt : (c * s.arena.blockSize).toInt = c.toInt * s.arena.blockSize.toInt :=
    hw.geometry.blocks_toInt (by omega) (by omega)
  -- the run keeps exactly the blocks the new layout needs, no more than it had
  have hcb : c * s.arena.blockSize = s.arena.blocksFor new.size * s.arena.blockSize := by
    have hp := hw.placed _ hmem
    obtain ⟨hpos, hcount, hrunend⟩ := hw.run_inside hmem
    have hoff := hw.blockOffset_start hmem
    have hs : ((s.arena.runAt e.offset e.size).start : Int) < s.arena.blockCount.toInt := by omega
    have hnc := Arena.one_le_blocksFor hw.geometry.blockSize_pos hnew.1 hnew.2
    have hle : (s.arena.blocksFor new.size).toInt ≤ (s.arena.blocksFor e.layout.size).toInt :=
      Arena.blocksFor_le_of_le_mul hw.geometry.blockSize_pos hnew.1 hnew.2 (by omega)
        (by rw [← hp.size_eq]; exact hfit)
    have hnew0 : (0 : Int) ≤ (s.arena.runAt e.offset e.size).start +
        (s.arena.blocksFor new.size).toInt := by omega
    rcases Int.lt_or_eq_of_le hle with hlt | heq
    · obtain ⟨bytes', -, hclears⟩ := @Arena.shrinkInPlace_clears _ hw₁.geometry
        (s.arena.runAt e.offset e.size).start e.layout new hs hrunend hlt hnew0
      rw [show (s.withSpace m).arena.blockOffset _ = e.offset from hoff] at hclears
      simp only [EStateM.run] at hclears
      rw [hclears] at hshrink
      injection hshrink with hans
      exact hans.symm
    · have hof := @Arena.shrinkInPlace_of_le (s.withSpace m).arena e.offset e.layout new
        (Int64.le_iff_toInt_le.2 (by exact heq.symm.le))
      simp only [EStateM.run] at hof
      rw [hof] at hshrink
      injection hshrink with hans
      have hans' : s.arena.blocksFor e.layout.size * s.arena.blockSize = c * s.arena.blockSize :=
        hans
      rw [← hans']
      exact congrArg (· * s.arena.blockSize) (Int64.toInt_inj.1 heq).symm
  rw [← hcb]
  refine ⟨?s', ?run, ?resized⟩
  case run =>
    simp only [BlockStore.resize, EStateM.run, bind, EStateM.bind, get, getThe,
      MonadStateOf.get, EStateM.get, hlook, hA, ite_true, hge, ite_false, hmove, onArena,
      Act.focus, hshrink, pure, EStateM.pure, put, bump, modify, modifyGet,
      MonadStateOf.modifyGet, EStateM.modifyGet]
    rfl
  case resized =>
    -- the store the shrink starts from differs from `s` only in its bytes
    refine Resized.of_nextHandle ?_ (rfl : (s.withSpace m).nextHandle = s.nextHandle)
      ⟨m.buffer, rfl⟩
    exact hw₁.resized hmem₁ ⟨e.offset, new.withSize (c * s.arena.blockSize), c * s.arena.blockSize⟩
      rfl rfl rfl (htr.perm (List.Perm.cons _ (hw₁.liveRuns_erase hmem₁)))
      (hw₁.placed_inPlace hmem₁ hc hcend hA) (by rw [hcInt]; exact hholds)

/-- Resizing a live handle to a layout the arena can serve, keeping a region that fits the old
    entry and the new layout: a refusal changes nothing, and a success leaves the handle with an
    entry that holds the new layout. -/
theorem WellFormed.resize_cases {s : BlockStore} (hw : s.WellFormed) {grow : Bool}
    {h : UInt64} {old new : Layout} {r : Region} {e : BlockEntry}
    (hl : s.entries.lookup h = some e) (hnew : s.arena.Sized new)
    (hr : r.Within e.size.toInt new.size.toInt) :
    (∃ f, f.Refusal ∧ (BlockStore.resize grow h old new r).run s = .error f s) ∨
      ∃ (n : Int64) (s' : BlockStore),
        (BlockStore.resize grow h old new r).run s = .ok (h, n) s' ∧ Resized s s' h new n := by
  by_cases hA : resizesInPlace s e new = true
  · by_cases hlt : e.size < new.size
    · rcases hw.growInPlace_cases (mem_of_lookup hl) new with
        hgrow | ⟨c, bytes, u, hnc, hcend, hgrow, htr⟩
      · -- no room after the run: the entry moves
        exact (hw.resize_relocating hl hnew hr (.inr ⟨hA, hlt, hgrow⟩)).imp_right
          fun ⟨s', hrun, hres⟩ => ⟨_, s', hrun, hres⟩
      · obtain ⟨s', hrun, hres⟩ := hw.resize_grown hl hnew hr hA hlt hnc hcend hgrow htr
        exact .inr ⟨_, s', hrun, hres⟩
    · obtain ⟨s', hrun, hres⟩ := hw.resize_shrunk hl hnew hr hA hlt
      exact .inr ⟨_, s', hrun, hres⟩
  · exact (hw.resize_relocating hl hnew hr (.inl (by simpa using hA))).imp_right
      fun ⟨s', hrun, hres⟩ => ⟨_, s', hrun, hres⟩

theorem resolve_run_of_lookup {s : BlockStore} {h : UInt64} {e : BlockEntry}
    (hne : h ≠ danglingHandle) (hl : s.entries.lookup h = some e) :
    (resolve h).run s = .ok (.offset e.offset.toInt) s := by
  have hlook : lookup h s = .ok e s := lookup_run_of_some hl
  simp only [resolve, EStateM.run, if_neg hne, bind, EStateM.bind, hlook, pure, EStateM.pure]

theorem WellFormed.resolve_run {s : BlockStore} (hw : s.WellFormed) {h : UInt64} {e : BlockEntry}
    (hl : s.entries.lookup h = some e) : (resolve h).run s = .ok (.offset e.offset.toInt) s := by
  have hpos : 0 < h.toNat := hw.handle_pos _ (mem_of_lookup hl)
  refine resolve_run_of_lookup (fun h0 => ?_) hl
  rw [h0] at hpos
  exact absurd hpos (by decide)

/-- Resizing in one of the eight forms: the resize above, then, for a zeroed form, clears of
    the new entry's bytes around the kept region. Every clear stays inside the new entry, so a
    success leaves what a plain resize leaves, and a refusal changes nothing. -/
theorem WellFormed.resizeWith_cases {s : BlockStore} (hw : s.WellFormed) {form : ResizeForm}
    {h : UInt64} {old new : Layout} {e : BlockEntry} (hl : s.entries.lookup h = some e)
    (hold : s.arena.Sized old) (hnew : s.arena.Sized new)
    (hr : (form.kept old new).Within e.size.toInt new.size.toInt) :
    (∃ f, f.Refusal ∧
        (Storage.resizeWith form h old new : Act BlockStore (UInt64 × Int64)).run s = .error f s) ∨
      ∃ (n : Int64) (s' : BlockStore),
        (Storage.resizeWith form h old new : Act BlockStore (UInt64 × Int64)).run s =
          .ok (h, n) s' ∧ Resized s s' h new n := by
  rcases @WellFormed.resize_cases _ hw form.grow h old new _ e hl hnew hr with
    ⟨f, hfr, hf⟩ | ⟨n, s', hrun, hres⟩
  · simp only [EStateM.run] at hf
    refine .inl ⟨f, hfr, ?_⟩
    simp only [Storage.resizeWith, resizeBy, EStateM.run, bind, EStateM.bind, hf]
  refine .inr ⟨n, ?_⟩
  obtain ⟨e', hl', hn⟩ := hres.entry
  have hmem' := mem_of_lookup hl'
  have hw' := hres.wellFormed
  have hresolve := hw'.resolve_run hl'
  simp only [EStateM.run] at hrun hresolve
  have hsize : n.toInt = e'.size.toInt := by rw [hn]
  have hholds := hres.holds
  cases hz : form.zeroed with
  | false =>
    refine ⟨s', ?_, hres⟩
    simp only [Storage.resizeWith, resizeBy, EStateM.run, bind, EStateM.bind, hrun, hz,
      Bool.false_eq_true, ite_false, pure, EStateM.pure]
  | true =>
    cases hreg : form.region with
    | none =>
      have hlo : 0 ≤ (if form.grow = true then old.size else new.size).toInt := by
        split
        · exact hold.1
        · exact hnew.1
      obtain ⟨m, hclear, -, hw''⟩ := hw'.clear_entry hmem' hlo (by omega : n.toInt ≤ e'.size.toInt)
      refine ⟨s'.withSpace m, ?_, hres.withSpace hw''⟩
      simp only [Storage.resizeWith, resizeBy, EStateM.run, bind, EStateM.bind, hrun, hz,
        ite_true, hreg, hresolve, get, getThe, MonadStateOf.get, EStateM.get, Act.ofExcept,
        hclear, pure, EStateM.pure, modify, modifyGet, MonadStateOf.modifyGet, EStateM.modifyGet]
    | some r =>
      have hr' : r.Within e.size.toInt new.size.toInt := by
        simpa only [ResizeForm.kept, hreg, Option.getD_some] using hr
      obtain ⟨-, hdst, hrsize, -, hrend⟩ := hr'
      obtain ⟨m₁, hclear₁, -, hw₁⟩ := hw'.clear_entry hmem' (by decide : 0 ≤ (0 : Int64).toInt)
        (by omega : r.dst.toInt ≤ e'.size.toInt)
      have hsum : (r.dst + r.size).toInt = r.dst.toInt + r.size.toInt := by
        have hmax := hnew.2
        have hbs := hw.geometry.blockSize_pos
        rw [Word.maxInt_toInt] at hmax
        exact Word.toInt_add_of_fits ⟨by omega, by omega⟩
      obtain ⟨m₂, hclear₂, -, hw₂⟩ := hw₁.clear_entry hmem' (by omega : 0 ≤ (r.dst + r.size).toInt)
        (by omega : n.toInt ≤ e'.size.toInt)
      refine ⟨(s'.withSpace m₁).withSpace m₂, ?_, (hres.withSpace hw₁).withSpace hw₂⟩
      simp only [Storage.resizeWith, resizeBy, EStateM.run, bind, EStateM.bind, hrun, hz,
        ite_true, hreg, hresolve, get, getThe, MonadStateOf.get, EStateM.get, Act.ofExcept,
        hclear₁, hclear₂, pure, EStateM.pure, modify, modifyGet, MonadStateOf.modifyGet,
        EStateM.modifyGet]

theorem byteAt_of_clear {m₀ m : Space} {base : Int} {lo hi : Int64}
    (hm : m = if hi ≤ lo then m₀ else m₀.fill0 (base + lo.toInt) (base + hi.toInt)) {k : Nat}
    (hk : (k : Int) < base + lo.toInt ∨ base + hi.toInt ≤ k) :
    Buffer.byteAt m.buffer k = Buffer.byteAt m₀.buffer k := by
  rw [hm]
  split
  · rfl
  · exact Space.byteAt_fill0 _ _ _ hk

/-- The clears of a zeroed form, after the plain resize has left `h` with an entry `e'` of `n`
    bytes that holds the kept region's destination: each clear lies inside `e'` and outside that
    destination, so the store stays well formed and keeps every byte outside `e'` and every byte
    of the destination. A form that does not clear changes nothing more. -/
theorem WellFormed.resizeWith_of_resize {s s₁ : BlockStore} {form : ResizeForm} {h : UInt64}
    {old new : Layout} {n : Int64} {e' : BlockEntry}
    (hrun : (BlockStore.resize form.grow h old new (form.kept old new)).run s = .ok (h, n) s₁)
    (hw₁ : s₁.WellFormed) (hl' : s₁.entries.lookup h = some e') (hn : e'.size = n)
    (hdst : 0 ≤ (form.kept old new).dst.toInt) (hsize : 0 ≤ (form.kept old new).size.toInt)
    (hend : (form.kept old new).dst.toInt + (form.kept old new).size.toInt ≤ n.toInt)
    (hsum : ((form.kept old new).dst + (form.kept old new).size).toInt =
      (form.kept old new).dst.toInt + (form.kept old new).size.toInt) :
    ∃ m : Space,
      (Storage.resizeWith form h old new : Act BlockStore (UInt64 × Int64)).run s =
        .ok (h, n) (s₁.withSpace m) ∧ (s₁.withSpace m).WellFormed ∧
      ∀ k : Nat, ((k : Int) < e'.offset.toInt ∨ e'.offset.toInt + n.toInt ≤ k ∨
          (e'.offset.toInt + (form.kept old new).dst.toInt ≤ k ∧
            k < e'.offset.toInt + (form.kept old new).dst.toInt + (form.kept old new).size.toInt)) →
        Buffer.byteAt m.buffer k = Buffer.byteAt s₁.arena.bytes k := by
  have hmem' := mem_of_lookup hl'
  have hresolve := hw₁.resolve_run hl'
  simp only [EStateM.run] at hrun hresolve
  cases hz : form.zeroed with
  | false =>
    refine ⟨s₁.space, ?_, hw₁, fun _ _ => rfl⟩
    simp only [Storage.resizeWith, resizeBy, EStateM.run, bind, EStateM.bind, hrun, hz,
      Bool.false_eq_true, ite_false, pure, EStateM.pure]
    rfl
  | true =>
    cases hreg : form.region with
    | none =>
      have hkept : form.kept old new =
          Region.prefixOf (if form.grow = true then old.size else new.size) := by
        simp only [ResizeForm.kept, hreg, Option.getD_none]
      rw [hkept] at hsize hend ⊢
      simp only [Region.prefixOf, Int64.toInt_zero, Int.zero_add, Int.add_zero] at hsize hend ⊢
      obtain ⟨m, hclear, hm, hw'⟩ := hw₁.clear_entry hmem' hsize (by rw [hn])
      refine ⟨m, ?_, hw', fun k hk => byteAt_of_clear hm (by omega)⟩
      simp only [Storage.resizeWith, resizeBy, EStateM.run, bind, EStateM.bind, hrun, hz,
        ite_true, hreg, hresolve, get, getThe, MonadStateOf.get, EStateM.get, Act.ofExcept,
        hclear, pure, EStateM.pure, modify, modifyGet, MonadStateOf.modifyGet, EStateM.modifyGet]
    | some r =>
      have hkept : form.kept old new = r := by
        simp only [ResizeForm.kept, hreg, Option.getD_some]
      rw [hkept] at hdst hsize hend hsum ⊢
      obtain ⟨m₁, hclear₁, hm₁, hw₁'⟩ := hw₁.clear_entry hmem' (by decide : 0 ≤ (0 : Int64).toInt)
        (by rw [hn]; omega : r.dst.toInt ≤ e'.size.toInt)
      obtain ⟨m₂, hclear₂, hm₂, hw₂⟩ := hw₁'.clear_entry hmem'
        (by omega : 0 ≤ (r.dst + r.size).toInt) (by rw [hn])
      refine ⟨m₂, ?_, hw₂, fun k hk => ?_⟩
      · simp only [Storage.resizeWith, resizeBy, EStateM.run, bind, EStateM.bind, hrun, hz,
          ite_true, hreg, hresolve, get, getThe, MonadStateOf.get, EStateM.get, Act.ofExcept,
          hclear₁, hclear₂, pure, EStateM.pure, modify, modifyGet, MonadStateOf.modifyGet,
          EStateM.modifyGet]
        rfl
      · have h₂ := byteAt_of_clear hm₂ (k := k) (by rw [hsum]; omega)
        have h₁ := byteAt_of_clear hm₁ (k := k) (by simp only [Int64.toInt_zero]; omega)
        exact h₂.trans h₁

theorem WellFormed.resizeWith_step {s : BlockStore} (hw : s.WellFormed) {form : ResizeForm}
    {h : UInt64} {old new : Layout} {e : BlockEntry} (hl : s.entries.lookup h = some e)
    (hold : s.arena.Sized old) (hnew : s.arena.Sized new)
    (hr : (form.kept old new).Within e.size.toInt new.size.toInt) :
    Follows s (Act.leaves (Storage.resizeWith form h old new : Act BlockStore (UInt64 × Int64)) s) := by
  rcases hw.resizeWith_cases hl hold hnew hr with ⟨f, -, hf⟩ | ⟨n, s', hrun, hres⟩
  · rw [Act.leaves_of_error hf]
    exact hw.follows_self
  · rw [Act.leaves_of_ok hrun]
    exact Follows.of_nextHandle_eq hres.wellFormed hres.nextHandle_eq

/-! ## Compacting -/

/-- A step of compaction on a live entry of a well-formed store whose relocation answers another
    block `t` of the arena: all of the entry's bytes are copied to `t`'s run, and the entry is
    recorded there with its layout and the usable size of its blocks and counted as moved. -/
theorem WellFormed.compactOne_run_moved {s : BlockStore} (hw : s.WellFormed) {h : UInt64}
    {e : BlockEntry} (hmem : (h, e) ∈ s.entries) (c : Compaction) {t : Nat} {A : Arena}
    (hfit : (t : Int) + (s.arena.blocksFor e.layout.size).toInt ≤ s.arena.blockCount.toInt)
    (hrun : (Arena.relocate e.offset e.layout).run s.arena =
      .ok (s.arena.blockOffset (Int64.ofNat t), s.arena.blocksFor e.layout.size * s.arena.blockSize)
        A)
    (hne : s.arena.blockOffset (Int64.ofNat t) ≠ e.offset) :
    (compactOne c (h, e)).run s =
      .ok { bytesMoved := c.bytesMoved + e.size, allocationsMoved := c.allocationsMoved + 1 }
        { ({ s with arena := A } : BlockStore).withSpace
            (Memory.copy (BlockStore.space { s with arena := A })
              (.offset (s.arena.blockOffset (Int64.ofNat t)).toInt) 0 (.offset e.offset.toInt) 0
              e.size.toInt) with
          entries := (h, ⟨s.arena.blockOffset (Int64.ofNat t), e.layout,
            s.arena.blocksFor e.layout.size * s.arena.blockSize⟩) :: s.entries.filter (·.1 != h) } := by
  have g := hw.geometry
  have hp := hw.placed _ hmem
  obtain ⟨htab, hend⟩ := hw.entry_bounds hmem
  have hword := s.arena.bufferSize.toInt_lt
  have hoc : 0 < (s.arena.blocksFor e.layout.size).toInt := hp.blocks_pos
  -- the entry holds exactly the bytes of its blocks, so the move takes all of them
  have hmin : min e.size (s.arena.blocksFor e.layout.size * s.arena.blockSize) = e.size := by
    rw [hw.size_eq_blocks hmem]
    simp [min]
  have hpsize : e.size.toInt =
      (s.arena.blocksFor e.layout.size).toInt * s.arena.blockSize.toInt := hp.size_eq
  have hsizeInt := hw.size_nonneg_of_mem hmem
  -- both runs lie past the table and inside the buffer, below `2^63`
  obtain ⟨hoffTab, hoffEnd⟩ := g.block_bounds hoc.le hfit
  have hmove := Memory.move_offset (BlockStore.space { s with arena := A }) hsizeInt
    (by omega : 0 ≤ (s.arena.blockOffset (Int64.ofNat t)).toInt + 0)
    (by omega : (s.arena.blockOffset (Int64.ofNat t)).toInt + 0 + e.size.toInt ≤ 2 ^ 63)
    (by omega : 0 ≤ e.offset.toInt + 0) (by omega : e.offset.toInt + 0 + e.size.toInt ≤ 2 ^ 63)
  rw [compactOne_run_of_moved hrun hne (by rw [hmin]; exact hmove), hmin]

/-- One step of compaction, on a live entry `(h, e)`: it goes on, with a well-formed store that
    has the same handle numbers, in which every other handle keeps its entry and `h` keeps its
    layout and size. -/
theorem WellFormed.compactOne_step {s : BlockStore} (hw : s.WellFormed) {h : UInt64}
    {e : BlockEntry} (hmem : (h, e) ∈ s.entries) (c : Compaction) :
    ∃ (c' : Compaction) (s' : BlockStore), (compactOne c (h, e)).run s = .ok c' s' ∧
      s'.WellFormed ∧ s'.nextHandle = s.nextHandle ∧
      (∀ he ∈ s.entries, he.1 ≠ h → he ∈ s'.entries) ∧
      ∃ e', (h, e') ∈ s'.entries ∧ e'.layout = e.layout ∧ e'.size = e.size := by
  have g := hw.geometry
  have hp := hw.placed _ hmem
  obtain ⟨htab, hend⟩ := hw.entry_bounds hmem
  obtain ⟨hpos, hcount, hrunend⟩ := hw.run_inside hmem
  rcases hw.relocate_cases hmem with ⟨bytes, hrun, htr⟩ | ⟨t, bytes, hfit, hal, hrun, htr⟩
  · -- no other fit: the entry stays where it is
    exact ⟨c, { s with arena := { s.arena with bytes := bytes } }, compactOne_run_of_refused hrun rfl,
      ⟨htr, fun he hm => (hw.placed he hm).withBytes _ _ _, hw.handle_pos, hw.handle_lt,
        hw.nextHandle_pos, hw.keys_nodup⟩, rfl, fun he hm _ => hm, e, hmem, rfl, rfl⟩
  · have hoc : 0 < (s.arena.blocksFor e.layout.size).toInt := hp.blocks_pos
    have hsize := hw.size_eq_blocks hmem
    by_cases hsame : s.arena.blockOffset (Int64.ofNat t) = e.offset
    · -- the first fit is the run itself
      have htr' : Tracks { s.arena with bytes := bytes } s.liveRuns := by
        rw [hsame, ← hsize] at htr
        exact htr.perm (List.perm_cons_erase (mem_liveRuns hmem)).symm
      rw [hsame] at hrun
      exact ⟨c, { s with arena := { s.arena with bytes := bytes } }, compactOne_run_of_stays hrun,
        ⟨htr', fun he hm => (hw.placed he hm).withBytes _ _ _, hw.handle_pos, hw.handle_lt,
          hw.nextHandle_pos, hw.keys_nodup⟩, rfl, fun he hm _ => hm, e, hmem, rfl, rfl⟩
    · -- the entry's bytes follow its blocks to the first fit
      obtain ⟨hoffTab, -⟩ := g.block_bounds hoc.le hfit
      set A : Arena := { s.arena with bytes := bytes } with hA
      have hrun' := hw.compactOne_run_moved hmem c hfit hrun hsame
      set m := Memory.copy (BlockStore.space { s with arena := A })
        (.offset (s.arena.blockOffset (Int64.ofNat t)).toInt) 0 (.offset e.offset.toInt) 0
        e.size.toInt with hm
      have hcopy : m.buffer.size = A.bytes.size := Memory.size_copy _ _ _ _ _ _
      have htr₂ := htr.withBytes hcopy fun k hk => by
        have hk' : k < s.arena.tableLength := hk
        rw [hm]
        exact Memory.byteAt_copy _ _ _ _ _ _ (.inl (by omega))
      clear_value m
      refine ⟨_, _, hrun', ?_, rfl, fun he hm hne => ?_, _, List.mem_cons_self, rfl, hsize.symm⟩
      · exact hw.replace rfl rfl le_rfl (hw.handle_pos _ hmem) (hw.handle_lt _ hmem)
          (htr₂.perm (List.Perm.cons _ (hw.liveRuns_erase hmem))) (g.placed_at hoc hfit rfl hal)
      · exact List.mem_cons_of_mem _ (List.mem_filter.2 ⟨hm, by simpa using hne⟩)

/-- What a compaction keeps of each entry: its handle is still live, with the same layout and
    size. -/
def KeepsShapes (s s' : BlockStore) : Prop :=
  ∀ he ∈ s.entries, ∃ e', (he.1, e') ∈ s'.entries ∧ e'.layout = he.2.layout ∧ e'.size = he.2.size

theorem KeepsShapes.refl (s : BlockStore) : KeepsShapes s s :=
  fun he hm => ⟨he.2, hm, rfl, rfl⟩

theorem KeepsShapes.trans {s₁ s₂ s₃ : BlockStore} (h₁ : KeepsShapes s₁ s₂)
    (h₂ : KeepsShapes s₂ s₃) : KeepsShapes s₁ s₃ := fun he hm => by
  obtain ⟨e₂, hm₂, hl₂, hs₂⟩ := h₁ he hm
  obtain ⟨e₃, hm₃, hl₃, hs₃⟩ := h₂ (he.1, e₂) hm₂
  exact ⟨e₃, hm₃, hl₃.trans hl₂, hs₃.trans hs₂⟩

/-- One step of compaction keeps the shape of every entry: the entry it moves has a single
    handle, since handles are distinct. -/
theorem WellFormed.compactOne_keepsShapes {s s' : BlockStore} (hw : s.WellFormed) {h : UInt64}
    {e : BlockEntry} (hmem : (h, e) ∈ s.entries)
    (hkeep : ∀ he ∈ s.entries, he.1 ≠ h → he ∈ s'.entries)
    (hmoved : ∃ e', (h, e') ∈ s'.entries ∧ e'.layout = e.layout ∧ e'.size = e.size) :
    KeepsShapes s s' := fun he hm => by
  by_cases hh : he.1 = h
  · have heq : he = (h, e) := List.inj_on_of_nodup_map hw.keys_nodup hm hmem hh
    rw [heq]
    exact hmoved
  · exact ⟨he.2, hkeep he hm hh, rfl, rfl⟩

/-- The entries a compaction has still to move, none with the handle of the entry one step
    moved, are live in the store that step leaves, which keeps every other entry. -/
theorem mem_of_keep {s s' : BlockStore} {h : UInt64} {todo : List (UInt64 × BlockEntry)}
    (hkeep : ∀ he ∈ s.entries, he.1 ≠ h → he ∈ s'.entries) (hin : ∀ he ∈ todo, he ∈ s.entries)
    (hh : h ∉ todo.map Prod.fst) : ∀ he ∈ todo, he ∈ s'.entries := fun he hm =>
  hkeep he (hin he hm) fun heq => hh (by
    rw [← heq]
    exact List.mem_map_of_mem hm)

/-- Compacting the entries `todo` in order, each live and with distinct handles, runs through
    and leaves a well-formed store with the same handle numbers, in which every entry keeps its
    shape. -/
theorem WellFormed.foldCompact : ∀ (todo : List (UInt64 × BlockEntry)) (c : Compaction)
    {s : BlockStore}, s.WellFormed → (∀ he ∈ todo, he ∈ s.entries) →
    (todo.map Prod.fst).Nodup →
    ∃ (c' : Compaction) (s' : BlockStore), (todo.foldlM compactOne c).run s = .ok c' s' ∧
      s'.WellFormed ∧ s'.nextHandle = s.nextHandle ∧ KeepsShapes s s'
  | [], c, s, hw, _, _ => ⟨c, s, rfl, hw, rfl, KeepsShapes.refl s⟩
  | (h, e) :: todo, c, s, hw, hin, hnd => by
    obtain ⟨c', s', hrun, hw', hnext, hkeep, hmoved⟩ :=
      hw.compactOne_step (hin _ List.mem_cons_self) c
    rw [List.map_cons, List.nodup_cons] at hnd
    have hin' := mem_of_keep hkeep (fun he hm => hin he (List.mem_cons_of_mem _ hm)) hnd.1
    obtain ⟨c'', s'', hrun', hw'', hnext', hshapes⟩ := foldCompact todo c' hw' hin' hnd.2
    refine ⟨c'', s'', ?_, hw'', hnext'.trans hnext,
      (hw.compactOne_keepsShapes (hin _ List.mem_cons_self) hkeep hmoved).trans hshapes⟩
    simp only [EStateM.run] at hrun hrun'
    simp only [List.foldlM_cons, EStateM.run, bind, EStateM.bind, hrun, hrun']

theorem byAddress_perm (s : BlockStore) : (byAddress s).Perm s.entries :=
  List.mergeSort_perm s.entries fun a b => decide (a.2.offset ≤ b.2.offset)

theorem WellFormed.byAddress_live {s : BlockStore} (hw : s.WellFormed) :
    (∀ he ∈ byAddress s, he ∈ s.entries) ∧ ((byAddress s).map Prod.fst).Nodup := by
  have hperm := byAddress_perm s
  exact ⟨fun he hm => hperm.mem_iff.1 hm, (hperm.map Prod.fst).nodup_iff.2 hw.keys_nodup⟩

theorem compact_run_of_fold {s s' : BlockStore} {c : Compaction}
    (hr : ((byAddress s).foldlM compactOne {}).run s = .ok c s') :
    compact.run s = .ok c { s' with epoch := s'.epoch + 1 } := by
  simp only [EStateM.run] at hr
  simp only [compact, EStateM.run, bind, EStateM.bind, get, getThe, MonadStateOf.get,
    EStateM.get, hr, bump, modify, modifyGet, MonadStateOf.modifyGet, EStateM.modifyGet,
    pure, EStateM.pure]

/-- Compacting a well-formed store answers: it runs through every entry, keeps the shape of
    each, and counts once. -/
theorem WellFormed.compact_run {s : BlockStore} (hw : s.WellFormed) :
    ∃ (c : Compaction) (s' : BlockStore), compact.run s = .ok c { s' with epoch := s'.epoch + 1 } ∧
      s'.WellFormed ∧ s'.nextHandle = s.nextHandle ∧ KeepsShapes s s' := by
  obtain ⟨hall, hnd⟩ := hw.byAddress_live
  obtain ⟨c, s', hr, hw', hnext, hshapes⟩ := hw.foldCompact (byAddress s) {} hall hnd
  exact ⟨c, s', compact_run_of_fold hr, hw', hnext, hshapes⟩

theorem WellFormed.compact_step {s : BlockStore} (hw : s.WellFormed) :
    Follows s (Act.leaves compact s) := by
  obtain ⟨c, s', hrun, hw', hnext, -⟩ := hw.compact_run
  rw [Act.leaves_of_ok hrun]
  exact Follows.of_nextHandle_eq (hw'.withEpoch _) hnext

end BlockStore

end BlockArena
