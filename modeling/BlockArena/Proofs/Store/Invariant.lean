import BlockArena.Proofs.Occupancy
import BlockArena.Proofs.Space
import BlockArena.Storage.Block.Compact
import BlockArena.Storage.Block.Create

/-! # The shape of a block storage

A block storage keeps, for every live handle, an entry with the address, layout and size of
its allocation in one arena. It is well formed (`WellFormed`) when the runs of blocks its
entries name are exactly the live runs the arena tracks (`Tracks`), each entry holds the blocks
its layout needs at an address aligned as the layout asks (`BlockEntry.Placed`), and the
handles are positive, distinct and below the next handle to give out.

This module states the invariant and the facts the operations draw on: what the arena
requests do on a live entry (`WellFormed.growInPlace_cases` and its siblings), and that the
store is again well formed after one entry is replaced or dropped (`WellFormed.replace`,
`WellFormed.drop`) or after bytes above the occupancy table are written
(`WellFormed.withSpace`).
-/

set_option autoImplicit false

namespace BlockArena

/-- The state an operation leaves, whether it answers or fails. -/
def Act.leaves {σ α : Type} (x : Act σ α) (s : σ) : σ :=
  match x.run s with
  | .ok _ s' => s'
  | .error _ s' => s'

theorem Act.leaves_of_ok {σ α : Type} {x : Act σ α} {s s' : σ} {v : α}
    (h : x.run s = .ok v s') : Act.leaves x s = s' := by
  unfold Act.leaves
  rw [h]

theorem Act.leaves_of_error {σ α : Type} {x : Act σ α} {s s' : σ} {f : Fault}
    (h : x.run s = .error f s') : Act.leaves x s = s' := by
  unfold Act.leaves
  rw [h]

/-- A region that reads inside the first `oldLen` bytes and writes inside the first `newLen`,
    with no field negative: what the caller of a resize promises, exactly, with no wrapping. -/
def Region.Within (r : Region) (oldLen newLen : Int) : Prop :=
  0 ≤ r.src.toInt ∧ 0 ≤ r.dst.toInt ∧ 0 ≤ r.size.toInt ∧
    r.src.toInt + r.size.toInt ≤ oldLen ∧ r.dst.toInt + r.size.toInt ≤ newLen

namespace Arena

variable {a : Arena} (g : a.Geometry)
include g

theorem Geometry.blockAligned_eq (b : Int64) (align : UInt64) :
    a.blockAligned b align = Addr.alignedAt (a.blockOffset b).toInt align := by
  simp only [blockAligned, g.live, Bool.false_eq_true, ite_false]

theorem Geometry.blocksFor_blocks {c : Int64} (hc : 0 < c.toInt)
    (hcn : c.toInt ≤ a.blockCount.toInt) : a.blocksFor (c * a.blockSize) = c := by
  have hbs := g.blockSize_pos
  have hprod := g.blocks_toInt hc.le hcn
  -- the table takes at least one block, so one block more than the arena still fits a word
  have hmgmt : 1 ≤ a.managementBlocks.toInt := by
    have hcov := g.table_covers
    have htab := g.table_eq
    have hn := g.blockCount_pos
    rcases Int.lt_or_eq_of_le g.managementBlocks_nonneg with hm | hm
    · omega
    · rw [← hm, Int.zero_mul] at htab
      omega
  have hroom : (c.toInt + 1) * a.blockSize.toInt ≤ a.bufferSize.toInt := by
    have := g.fits
    have : (c.toInt + 1) * a.blockSize.toInt ≤
        (a.managementBlocks.toInt + a.blockCount.toInt) * a.blockSize.toInt :=
      Int.mul_le_mul_of_nonneg_right (by omega) hbs.le
    omega
  have hword := a.bufferSize.toInt_lt
  have hsum : (c * a.blockSize).toInt + a.blockSize.toInt - 1 ≤ Word.maxInt.toInt := by
    rw [hprod, Word.maxInt_toInt]
    rw [Int.add_mul, Int.one_mul] at hroom
    omega
  apply Int64.toInt_inj.1
  rw [blocksFor_toInt hbs (by rw [hprod]; exact Int.mul_nonneg hc.le hbs.le) hsum, hprod]
  have hdiv : (c.toInt * a.blockSize.toInt + a.blockSize.toInt - 1) / a.blockSize.toInt =
      c.toInt := by
    rw [show c.toInt * a.blockSize.toInt + a.blockSize.toInt - 1 =
        (a.blockSize.toInt - 1) + c.toInt * a.blockSize.toInt by omega,
      Int.add_mul_ediv_right _ _ (Int.ne_of_gt hbs), Int.ediv_eq_zero_of_lt (by omega) (by omega)]
    omega
  rw [hdiv]
  omega

end Arena

/-- An entry agrees with the arena: its offset is the address of the first block of its run,
    its size is the whole blocks its layout asks for, exactly, and its offset has its layout's
    alignment. -/
structure BlockEntry.Placed (a : Arena) (e : BlockEntry) : Prop where
  offset_eq : (a.runAt e.offset e.size).addr a = e.offset
  blocks_pos : 0 < (a.blocksFor e.layout.size).toInt
  size_eq : e.size.toInt = (a.blocksFor e.layout.size).toInt * a.blockSize.toInt
  aligned : Addr.alignedAt e.offset.toInt e.layout.align = true

theorem BlockEntry.Placed.withBytes {a : Arena} {e : BlockEntry} (hp : e.Placed a)
    (bytes : ByteArray) (count used : Int64) :
    e.Placed { a with bytes := bytes, allocationCount := count, usedBlocks := used } :=
  ⟨hp.offset_eq, hp.blocks_pos, hp.size_eq, hp.aligned⟩

namespace Arena

variable {a : Arena} (g : a.Geometry)
include g

/-- An entry at the address of block `t`, sized for the `c` blocks its layout asks for, is
    placed. -/
theorem Geometry.placed_at {t : Nat} {l : Layout} {c : Int64} (hc : 0 < c.toInt)
    (hend : t + c.toInt ≤ a.blockCount.toInt) (hcount : a.blocksFor l.size = c)
    (hal : Addr.alignedAt (a.blockOffset (Int64.ofNat t)).toInt l.align = true) :
    BlockEntry.Placed a ⟨a.blockOffset (Int64.ofNat t), l, c * a.blockSize⟩ where
  offset_eq := by
    show (a.runAt (a.blockOffset (Int64.ofNat t)) (c * a.blockSize)).addr a = _
    rw [g.runAt_blockOffset (by omega) hc.le (by omega)]
    rfl
  blocks_pos := by rw [hcount]; exact hc
  size_eq := by rw [hcount]; exact g.blocks_toInt hc.le (by omega)
  aligned := hal

theorem Geometry.block_bounds {t : Nat} {c : Int} (hc : 0 ≤ c)
    (hend : t + c ≤ a.blockCount.toInt) :
    (a.tableLength : Int) ≤ (a.blockOffset (Int64.ofNat t)).toInt ∧
      (a.blockOffset (Int64.ofNat t)).toInt + c * a.blockSize.toInt ≤ a.bufferSize.toInt := by
  have hoff := g.blockOffset_ofNat (by omega : (t : Int) ≤ a.blockCount.toInt)
  refine ⟨g.tableLength_le_blockOffset (by omega), ?_⟩
  -- the blocks end inside the arena, whose blocks fit in the buffer
  have hle : (a.managementBlocks.toInt + t + c) * a.blockSize.toInt ≤
      (a.managementBlocks.toInt + a.blockCount.toInt) * a.blockSize.toInt :=
    Int.mul_le_mul_of_nonneg_right (by omega) g.blockSize_pos.le
  have := g.fits
  rw [hoff, ← Int.add_mul]
  omega

end Arena

theorem Tracks.dealloc_ok {a : Arena} {live : List Extent} (h : Tracks a live) {x : Extent}
    (hx : x ∈ live) {l : Layout} (hl : (a.blocksFor l.size).toInt = x.count) :
    ∃ bytes : ByteArray,
      (Arena.dealloc (x.addr a) l).run a =
        .ok () { a with bytes := bytes, allocationCount := a.allocationCount - 1,
                        usedBlocks := a.usedBlocks - a.blocksFor l.size } ∧
      Tracks { a with bytes := bytes, allocationCount := a.allocationCount - 1,
                      usedBlocks := a.usedBlocks - a.blocksFor l.size } (live.erase x) := by
  obtain ⟨hpos, -, hend⟩ := h.inside x hx
  have hs : (x.start : Int) < a.blockCount.toInt := by omega
  have hrun_end : (x.start : Int) + (a.blocksFor l.size).toInt ≤ a.blockCount.toInt := by omega
  obtain ⟨bytes, -, hrun⟩ := Arena.dealloc_spec h.geometry hs hrun_end
  have htr := h.run_dealloc hx hl
  simp only [Call.run, Extent.addr, hrun] at htr
  exact ⟨bytes, hrun, htr⟩

namespace BlockStore

/-! ## The entries -/

section Entries

variable {entries : List (UInt64 × BlockEntry)} {h : UInt64} {e : BlockEntry}

theorem mem_of_lookup (hl : entries.lookup h = some e) : (h, e) ∈ entries := by
  obtain ⟨l₁, l₂, rfl, -⟩ := List.lookup_eq_some_iff.1 hl
  simp

theorem perm_cons_filter (hnd : (entries.map Prod.fst).Nodup) (hmem : (h, e) ∈ entries) :
    entries.Perm ((h, e) :: entries.filter (·.1 != h)) := by
  induction entries with
  | nil => simp at hmem
  | cons x xs ih =>
    rw [List.map_cons, List.nodup_cons] at hnd
    rcases List.mem_cons.1 hmem with rfl | hmem'
    · -- the entry comes first, and no later entry has its handle
      have hkeep : xs.filter (·.1 != h) = xs := List.filter_eq_self.2 fun y hy => by
        have hne : y.1 ≠ h := fun hy' => hnd.1 (by
          show h ∈ _
          rw [← hy']
          exact List.mem_map_of_mem hy)
        simpa using hne
      simp [hkeep]
    · have hx : x.1 ≠ h := fun hx => hnd.1 (by
        rw [hx]
        exact List.mem_map_of_mem hmem')
      rw [List.filter_cons_of_pos (by simpa using hx)]
      exact ((ih hnd.2 hmem').cons x).trans (List.Perm.swap _ _ _)

end Entries

/-- The runs of blocks the live handles hold, in the order of the entries. -/
def liveRuns (s : BlockStore) : List Extent :=
  s.entries.map fun he => s.arena.runAt he.2.offset he.2.size

/-- The representation invariant of a block storage: the arena's table and counters track
    exactly the runs of the live entries, every entry is placed in its run, and the handles are
    distinct numbers in `[1, nextHandle)`. -/
structure WellFormed (s : BlockStore) : Prop where
  tracks : Tracks s.arena s.liveRuns
  placed : ∀ he ∈ s.entries, he.2.Placed s.arena
  handle_pos : ∀ he ∈ s.entries, 0 < he.1.toNat
  handle_lt : ∀ he ∈ s.entries, he.1.toNat < s.nextHandle.toNat
  nextHandle_pos : 0 < s.nextHandle.toNat
  keys_nodup : (s.entries.map Prod.fst).Nodup

theorem mem_liveRuns {s : BlockStore} {h : UInt64} {e : BlockEntry} (hmem : (h, e) ∈ s.entries) :
    s.arena.runAt e.offset e.size ∈ s.liveRuns :=
  List.mem_map.2 ⟨(h, e), hmem, rfl⟩

namespace WellFormed

variable {s : BlockStore} (hw : s.WellFormed)
include hw

theorem geometry : s.arena.Geometry := hw.tracks.geometry

theorem size_nonneg_of_mem {h : UInt64} {e : BlockEntry} (hmem : (h, e) ∈ s.entries) :
    0 ≤ e.size.toInt := by
  have hp := hw.placed _ hmem
  rw [hp.size_eq]
  exact Int.mul_nonneg hp.blocks_pos.le hw.geometry.blockSize_pos.le

theorem count_eq {h : UInt64} {e : BlockEntry} (hmem : (h, e) ∈ s.entries) :
    ((s.arena.runAt e.offset e.size).count : Int) = (s.arena.blocksFor e.layout.size).toInt := by
  have hp := hw.placed _ hmem
  have hbs := hw.geometry.blockSize_pos
  have hsize := hw.size_nonneg_of_mem hmem
  have hdiv : (e.size / s.arena.blockSize).toInt = (s.arena.blocksFor e.layout.size).toInt := by
    rw [Word.toInt_div_of_nonneg hsize hbs, hp.size_eq, Int.mul_ediv_cancel _ (Int.ne_of_gt hbs)]
  show (((e.size / s.arena.blockSize).toNatClampNeg : Nat) : Int) = _
  rw [← Int64.toNat_toInt, hdiv, Int.toNat_of_nonneg hp.blocks_pos.le]

theorem liveRuns_erase {h : UInt64} {e : BlockEntry} (hmem : (h, e) ∈ s.entries) :
    (s.liveRuns.erase (s.arena.runAt e.offset e.size)).Perm
      ((s.entries.filter (·.1 != h)).map fun he => s.arena.runAt he.2.offset he.2.size) := by
  have hp := (perm_cons_filter hw.keys_nodup hmem).map
    fun he => s.arena.runAt he.2.offset he.2.size
  unfold liveRuns
  simpa using hp.erase (s.arena.runAt e.offset e.size)

/-- New bytes that agree with the old ones on the table keep a store well formed. -/
theorem withSpace {m : Space} (hsize : m.buffer.size = s.arena.bytes.size)
    (hkeep : ∀ k, k < s.arena.tableLength → Buffer.byteAt m.buffer k = Buffer.byteAt s.arena.bytes k) :
    (s.withSpace m).WellFormed where
  tracks := hw.tracks.withBytes hsize hkeep
  placed he hmem := (hw.placed he hmem).withBytes _ _ _
  handle_pos := hw.handle_pos
  handle_lt := hw.handle_lt
  nextHandle_pos := hw.nextHandle_pos
  keys_nodup := hw.keys_nodup

/-- A store whose entry of `h` is replaced by `e'`, over an arena of the same shape that tracks
    the new runs, stays well formed when `e'` is placed and `h` is a handle number in use. -/
theorem replace {s' : BlockStore} {h : UInt64} {e' : BlockEntry} {bytes : ByteArray}
    {count used : Int64}
    (harena : s'.arena = { s.arena with bytes := bytes, allocationCount := count, usedBlocks := used })
    (hentries : s'.entries = (h, e') :: s.entries.filter (·.1 != h))
    (hnext : s.nextHandle.toNat ≤ s'.nextHandle.toNat)
    (hpos : 0 < h.toNat) (hlt : h.toNat < s'.nextHandle.toNat)
    (ht : Tracks s'.arena (s.arena.runAt e'.offset e'.size ::
      (s.entries.filter (·.1 != h)).map fun he => s.arena.runAt he.2.offset he.2.size))
    (hp : e'.Placed s.arena) : s'.WellFormed := by
  have hold : ∀ he ∈ s.entries.filter (·.1 != h), he ∈ s.entries ∧ he.1 ≠ h := fun he hm => by
    simpa using List.mem_filter.1 hm
  refine ⟨?_, ?_, ?_, ?_, by omega, ?_⟩
  · unfold liveRuns
    rw [hentries, harena]
    rw [harena] at ht
    exact ht
  · rw [hentries, harena]
    intro he hm
    rcases List.mem_cons.1 hm with rfl | hm
    · exact hp.withBytes _ _ _
    · exact (hw.placed he (hold he hm).1).withBytes _ _ _
  · rw [hentries]
    intro he hm
    rcases List.mem_cons.1 hm with rfl | hm
    · exact hpos
    · exact hw.handle_pos he (hold he hm).1
  · rw [hentries]
    intro he hm
    rcases List.mem_cons.1 hm with rfl | hm
    · exact hlt
    · exact Nat.lt_of_lt_of_le (hw.handle_lt he (hold he hm).1) hnext
  · rw [hentries, List.map_cons, List.nodup_cons]
    refine ⟨fun hm => ?_, hw.keys_nodup.sublist (List.filter_sublist.map Prod.fst)⟩
    obtain ⟨he, hm, hfst⟩ := List.mem_map.1 hm
    exact (hold he hm).2 hfst

/-- A store whose entry of `h` is dropped, over an arena of the same shape that tracks the runs
    left, stays well formed. -/
theorem drop {s' : BlockStore} {h : UInt64} {bytes : ByteArray} {count used : Int64}
    (harena : s'.arena = { s.arena with bytes := bytes, allocationCount := count, usedBlocks := used })
    (hentries : s'.entries = s.entries.filter (·.1 != h))
    (hnext : s'.nextHandle = s.nextHandle)
    (ht : Tracks s'.arena ((s.entries.filter (·.1 != h)).map fun he => s.arena.runAt he.2.offset he.2.size)) :
    s'.WellFormed := by
  have hold : ∀ he ∈ s'.entries, he ∈ s.entries := fun he hm => by
    rw [hentries] at hm
    exact List.mem_of_mem_filter hm
  refine ⟨?_, fun he hm => ?_, fun he hm => hw.handle_pos he (hold he hm),
    fun he hm => hnext ▸ hw.handle_lt he (hold he hm), hnext ▸ hw.nextHandle_pos, ?_⟩
  · unfold liveRuns
    rw [hentries, harena]
    rw [harena] at ht
    exact ht
  · rw [harena]
    exact (hw.placed he (hold he hm)).withBytes _ _ _
  · rw [hentries]
    exact hw.keys_nodup.sublist (List.filter_sublist.map Prod.fst)

theorem withSpace_fill0 {lo : Int} (hlo : (s.arena.tableLength : Int) ≤ lo) (hi : Int) :
    (s.withSpace (s.space.fill0 lo hi)).WellFormed :=
  hw.withSpace (Space.size_fill0 s.space lo hi) fun _ hk =>
    Space.byteAt_fill0 s.space lo hi (.inl (by omega))

theorem withSpace_copy {base dstOff : Int} (hdst : (s.arena.tableLength : Int) ≤ base + dstOff)
    (src : Addr) (srcOff n : Int) :
    (s.withSpace (Memory.copy s.space (.offset base) dstOff src srcOff n)).WellFormed :=
  hw.withSpace (Memory.size_copy _ _ _ _ _ _) fun _ hk =>
    Memory.byteAt_copy _ _ _ _ _ _ (.inl (by omega))

theorem filter_fresh : s.entries.filter (·.1 != s.nextHandle) = s.entries :=
  List.filter_eq_self.2 fun he hm => by
    have hlt := hw.handle_lt he hm
    have hne : he.1 ≠ s.nextHandle := fun heq => by rw [heq] at hlt; omega
    simpa using hne

end WellFormed

/-- What every call leaves: a well-formed store that has used at most one more handle number. -/
structure Follows (s s' : BlockStore) : Prop where
  wellFormed : s'.WellFormed
  next_ge : s.nextHandle.toNat ≤ s'.nextHandle.toNat
  next_le : s'.nextHandle.toNat ≤ s.nextHandle.toNat + 1

theorem WellFormed.follows_self {s : BlockStore} (hw : s.WellFormed) : Follows s s :=
  ⟨hw, le_rfl, Nat.le_succ _⟩

theorem Follows.of_nextHandle_eq {s s' : BlockStore} (hw : s'.WellFormed)
    (hnext : s'.nextHandle = s.nextHandle) : Follows s s' :=
  ⟨hw, by rw [hnext], by rw [hnext]; exact Nat.le_succ _⟩

theorem WellFormed.withEpoch {s : BlockStore} (hw : s.WellFormed) (epoch : UInt64) :
    ({ s with epoch := epoch } : BlockStore).WellFormed :=
  ⟨hw.tracks, hw.placed, hw.handle_pos, hw.handle_lt, hw.nextHandle_pos, hw.keys_nodup⟩

/-! ## Moving bytes -/

theorem moveRegion_run (s : BlockStore) {dst src : Int64} {r : Region} (hn : 0 ≤ r.size.toInt)
    (hd : 0 ≤ dst.toInt + r.dst.toInt) (hdend : dst.toInt + r.dst.toInt + r.size.toInt ≤ 2 ^ 63)
    (hs : 0 ≤ src.toInt + r.src.toInt) (hsend : src.toInt + r.src.toInt + r.size.toInt ≤ 2 ^ 63) :
    (moveRegion dst src r).run s = .ok () (s.withSpace (Memory.copy s.space (.offset dst.toInt)
      r.dst.toInt (.offset src.toInt) r.src.toInt r.size.toInt)) := by
  simp only [moveRegion, EStateM.run, bind, EStateM.bind, get, getThe, MonadStateOf.get,
    EStateM.get, Act.ofExcept, Memory.move_offset _ hn hd hdend hs hsend, pure, EStateM.pure, set,
    MonadStateOf.set, EStateM.set]

/-! ## The arena requests on a live entry -/

section LiveEntry

variable {s : BlockStore} (hw : s.WellFormed) {h : UInt64} {e : BlockEntry}
  (hmem : (h, e) ∈ s.entries)
include hw hmem

theorem WellFormed.run_inside :
    0 < (s.arena.runAt e.offset e.size).count ∧
      ((s.arena.runAt e.offset e.size).count : Int) = (s.arena.blocksFor e.layout.size).toInt ∧
      ((s.arena.runAt e.offset e.size).start : Int) + (s.arena.blocksFor e.layout.size).toInt ≤
        s.arena.blockCount.toInt := by
  have hcount := hw.count_eq hmem
  obtain ⟨hpos, -, hend⟩ := hw.tracks.inside _ (mem_liveRuns hmem)
  exact ⟨hpos, hcount, by omega⟩

theorem WellFormed.blockOffset_start :
    s.arena.blockOffset (Int64.ofNat (s.arena.runAt e.offset e.size).start) = e.offset :=
  (hw.placed _ hmem).offset_eq

theorem WellFormed.size_eq_blocks :
    e.size = s.arena.blocksFor e.layout.size * s.arena.blockSize := by
  have hp := hw.placed _ hmem
  have hpos : 0 < (s.arena.blocksFor e.layout.size).toInt := hp.blocks_pos
  obtain ⟨-, -, hend⟩ := hw.run_inside hmem
  have hwords := hw.geometry.blocks_toInt hpos.le (by omega)
  exact Int64.toInt_inj.1 (by rw [hp.size_eq, hwords])

theorem WellFormed.entry_bounds :
    (s.arena.tableLength : Int) ≤ e.offset.toInt ∧
      e.offset.toInt + e.size.toInt ≤ s.arena.bufferSize.toInt := by
  have hp := hw.placed _ hmem
  obtain ⟨-, -, hend⟩ := hw.run_inside hmem
  have hb := hw.geometry.block_bounds hp.blocks_pos.le hend
  have hoff := hw.blockOffset_start hmem
  rw [hoff, ← hp.size_eq] at hb
  exact hb

/-- Growing a live entry in place either finds no room, with the arena unchanged, or answers
    the size of the `c` blocks its run now has, at least the blocks the new layout asks for. -/
theorem WellFormed.growInPlace_cases (new : Layout) :
    (Arena.growInPlace e.offset e.layout new).run s.arena = .ok (0, false) s.arena ∨
      ∃ (c : Int64) (bytes : ByteArray) (u : Int64),
        (s.arena.blocksFor new.size).toInt ≤ c.toInt ∧
        ((s.arena.runAt e.offset e.size).start : Int) + c.toInt ≤ s.arena.blockCount.toInt ∧
        (Arena.growInPlace e.offset e.layout new).run s.arena =
          .ok (c * s.arena.blockSize, true) { s.arena with bytes := bytes, usedBlocks := u } ∧
        Tracks { s.arena with bytes := bytes, usedBlocks := u }
          (s.arena.runAt e.offset (c * s.arena.blockSize) ::
            s.liveRuns.erase (s.arena.runAt e.offset e.size)) := by
  have g := hw.geometry
  obtain ⟨hpos, hcount, hend⟩ := hw.run_inside hmem
  have hoff := hw.blockOffset_start hmem
  have htr := @Tracks.run_growInPlace _ _ hw.tracks _ _ new (mem_liveRuns hmem) hcount.symm
  rcases @Arena.growInPlace_spec _ g _ _ new hw.tracks.blockCount_room (by omega) hend (by omega) with
    ⟨hle, hrun⟩ | hrun | ⟨-, -, hnend, -, bytes, -, hrun⟩
  · -- the new layout needs no more blocks: the run stays as it is
    simp only [Call.run, Extent.addr, hrun] at htr
    rw [hoff] at htr hrun
    exact .inr ⟨_, s.arena.bytes, s.arena.usedBlocks, hle, hend, hrun, htr⟩
  · rw [hoff] at hrun
    exact .inl hrun
  · simp only [Call.run, Extent.addr, hrun] at htr
    rw [hoff] at htr hrun
    exact .inr ⟨_, bytes, _, le_rfl, hnend, hrun, htr⟩

/-- Shrinking a live entry in place to a layout its size holds answers the size of the `c`
    blocks its run keeps, which still hold the new layout. -/
theorem WellFormed.shrinkInPlace_cases {new : Layout} (hnew : s.arena.Sized new)
    (hfit : new.size.toInt ≤ e.size.toInt) :
    ∃ (c : Int64) (bytes : ByteArray) (u : Int64),
      0 < c.toInt ∧ new.size.toInt ≤ c.toInt * s.arena.blockSize.toInt ∧
      ((s.arena.runAt e.offset e.size).start : Int) + c.toInt ≤ s.arena.blockCount.toInt ∧
      (Arena.shrinkInPlace e.offset e.layout new).run s.arena =
        .ok (c * s.arena.blockSize) { s.arena with bytes := bytes, usedBlocks := u } ∧
      Tracks { s.arena with bytes := bytes, usedBlocks := u }
        (s.arena.runAt e.offset (c * s.arena.blockSize) ::
          s.liveRuns.erase (s.arena.runAt e.offset e.size)) := by
  have g := hw.geometry
  obtain ⟨hpos, hcount, hend⟩ := hw.run_inside hmem
  have hoff := hw.blockOffset_start hmem
  have hnpos := Arena.one_le_blocksFor g.blockSize_pos hnew.1 hnew.2
  have htr := hw.tracks.run_shrinkInPlace (mem_liveRuns hmem) hcount.symm hnew
  rcases @Arena.shrinkInPlace_spec _ g _ _ new (by omega) hend (by omega) with
    ⟨-, hrun⟩ | ⟨hlt, bytes, -, hrun⟩
  · -- the new layout needs as many blocks: the run stays as it is, and holds the layout
    simp only [Call.run, Extent.addr, hrun] at htr
    rw [hoff] at htr hrun
    have hsize : new.size.toInt ≤ (s.arena.blocksFor e.layout.size).toInt * s.arena.blockSize.toInt := by
      rw [← (hw.placed _ hmem).size_eq]
      exact hfit
    exact ⟨_, s.arena.bytes, s.arena.usedBlocks, by omega, hsize, hend, hrun, htr⟩
  · simp only [Call.run, Extent.addr, hrun] at htr
    rw [hoff] at htr hrun
    exact ⟨_, bytes, _, by omega, Arena.size_le_blocksFor_mul g.blockSize_pos hnew.1 hnew.2,
      by omega, hrun, htr⟩

/-- Relocating a live entry: with no other fit, its run stays where it is, marked again; otherwise
    it moves to the first fit, a run of the same number of blocks. -/
theorem WellFormed.relocate_cases :
    (∃ bytes : ByteArray,
      (Arena.relocate e.offset e.layout).run s.arena =
        .error (.noFreeRunToRelocate (s.arena.blocksFor e.layout.size) e.layout)
          { s.arena with bytes := bytes } ∧
      Tracks { s.arena with bytes := bytes } s.liveRuns) ∨
    ∃ (t : Nat) (bytes : ByteArray),
      t + (s.arena.blocksFor e.layout.size).toInt ≤ s.arena.blockCount.toInt ∧
      Addr.alignedAt (s.arena.blockOffset (Int64.ofNat t)).toInt e.layout.align = true ∧
      (Arena.relocate e.offset e.layout).run s.arena =
        .ok (s.arena.blockOffset (Int64.ofNat t), s.arena.blocksFor e.layout.size * s.arena.blockSize)
          { s.arena with bytes := bytes } ∧
      Tracks { s.arena with bytes := bytes }
        (s.arena.runAt (s.arena.blockOffset (Int64.ofNat t))
          (s.arena.blocksFor e.layout.size * s.arena.blockSize) ::
            s.liveRuns.erase (s.arena.runAt e.offset e.size)) := by
  have g := hw.geometry
  obtain ⟨hpos, hcount, hend⟩ := hw.run_inside hmem
  have hoff := hw.blockOffset_start hmem
  have htr := hw.tracks.run_relocate (mem_liveRuns hmem) hcount.symm
  obtain ⟨_, -, hcases⟩ := @Arena.relocate_spec _ g _ e.layout (by omega) hend (by omega)
  rcases hcases with ⟨bytes, -, -, hrun⟩ | ⟨t, bytes, hfit, -, -, hrun⟩
  · simp only [Call.run, Extent.addr, hrun] at htr
    rw [hoff] at hrun
    exact .inl ⟨bytes, hrun, htr⟩
  · simp only [Call.run, Extent.addr, hrun] at htr
    rw [hoff] at hrun
    have hal := hfit.2.1
    simp only [Arena.blockAligned, g.live, Bool.false_eq_true, ite_false] at hal
    exact .inr ⟨t, bytes, hfit.1, hal, hrun, htr⟩

/-- Clearing bytes `[lo, hi)` of a live entry passes its checks, clears just those bytes, and
    keeps the store well formed. -/
theorem WellFormed.clear_entry {lo hi : Int64} (hlo : 0 ≤ lo.toInt)
    (hhi : hi.toInt ≤ e.size.toInt) :
    ∃ m, Memory.clear s.space (.offset e.offset.toInt) lo hi = .ok m ∧
      m = (if hi ≤ lo then s.space
        else s.space.fill0 (e.offset.toInt + lo.toInt) (e.offset.toInt + hi.toInt)) ∧
      (s.withSpace m).WellFormed := by
  obtain ⟨htab, hend⟩ := hw.entry_bounds hmem
  have hword := s.arena.bufferSize.toInt_lt
  refine ⟨_, Memory.clear_offset _ (by omega) hlo (by omega), rfl, ?_⟩
  split
  · exact hw
  · exact hw.withSpace_fill0 (by omega) _

end LiveEntry

/-- Serving a layout from the arena of a well-formed store, as `alloc_cases` says, with the
    table then tracking the new run beside the live ones. -/
theorem WellFormed.alloc_cases {s : BlockStore} (hw : s.WellFormed) {l : Layout}
    (hl : s.arena.Sized l) :
    (∃ f, f.Refusal ∧ (Arena.alloc l).run s.arena = .error f s.arena) ∨
      ∃ (t : Nat) (bytes : ByteArray),
        t + (s.arena.blocksFor l.size).toInt ≤ s.arena.blockCount.toInt ∧
        Addr.alignedAt (s.arena.blockOffset (Int64.ofNat t)).toInt l.align = true ∧
        (∀ b : Nat, t ≤ b → b < t + (s.arena.blocksFor l.size).toInt → s.arena.usedBit b = false) ∧
        (Arena.alloc l).run s.arena =
          .ok (s.arena.blockOffset (Int64.ofNat t), s.arena.blocksFor l.size * s.arena.blockSize)
            { s.arena with bytes := bytes, allocationCount := s.arena.allocationCount + 1,
                           usedBlocks := s.arena.usedBlocks + s.arena.blocksFor l.size } ∧
        Tracks { s.arena with bytes := bytes, allocationCount := s.arena.allocationCount + 1,
                              usedBlocks := s.arena.usedBlocks + s.arena.blocksFor l.size }
          (s.arena.runAt (s.arena.blockOffset (Int64.ofNat t))
            (s.arena.blocksFor l.size * s.arena.blockSize) :: s.liveRuns) := by
  have g := hw.geometry
  rcases Arena.alloc_cases g hl.1 hl.2 with hf | ⟨t, bytes, -, hfit, -, -, hrun⟩
  · exact .inl hf
  · have htr := hw.tracks.run_alloc hl
    simp only [Call.run, hrun] at htr
    exact .inr ⟨t, bytes, hfit.1, (g.blockAligned_eq _ _).symm.trans hfit.2.1, hfit.2.2, hrun, htr⟩

/-! ## Looking a handle up -/

theorem lookup_run_of_some {s : BlockStore} {h : UInt64} {e : BlockEntry}
    (hl : s.entries.lookup h = some e) : (lookup h).run s = .ok e s := by
  simp only [lookup, EStateM.run, bind, EStateM.bind, get, getThe, MonadStateOf.get, EStateM.get,
    hl, pure, EStateM.pure]

theorem lookup_run_of_none {s : BlockStore} {h : UInt64} (hl : s.entries.lookup h = none) :
    (lookup h).run s = .error (.handleNotLive h) s := by
  simp only [lookup, EStateM.run, bind, EStateM.bind, get, getThe, MonadStateOf.get, EStateM.get,
    hl, Act.fail, throw, throwThe, MonadExceptOf.throw, EStateM.throw]

/-! ## Allocating -/

theorem allocate_run_of_error {s : BlockStore} {l : Layout} {f : Fault} {a : Arena}
    (hf : (Arena.alloc l).run s.arena = .error f a) :
    (allocate l).run s = .error f { s with arena := a } := by
  simp only [allocate, EStateM.run, bind, EStateM.bind, onArena, Act.focus]
  rw [show Arena.alloc l s.arena = (Arena.alloc l).run s.arena from rfl, hf]

/-- An answer of the arena is recorded under the next handle number, which is given out, and
    counted once. -/
theorem allocate_run_of_ok {s : BlockStore} {l : Layout} {off size : Int64} {a : Arena}
    (hrun : (Arena.alloc l).run s.arena = .ok (off, size) a) :
    (allocate l).run s = .ok (s.nextHandle, size)
      { s with
        arena := a
        nextHandle := s.nextHandle + 1
        entries := (s.nextHandle, ⟨off, l, size⟩) :: s.entries.filter (·.1 != s.nextHandle)
        epoch := s.epoch + 1 } := by
  simp only [allocate, EStateM.run, bind, EStateM.bind, onArena, Act.focus]
  rw [show Arena.alloc l s.arena = (Arena.alloc l).run s.arena from rfl, hrun]
  simp only [get, getThe, MonadStateOf.get, EStateM.get, put, bump, modify, modifyGet,
    MonadStateOf.modifyGet, EStateM.modifyGet, pure, EStateM.pure]

theorem resolveSize_run_of_some {s : BlockStore} {h : UInt64} {e : BlockEntry}
    (hl : s.entries.lookup h = some e) (hne : h ≠ danglingHandle) :
    (resolveSize h).run s = .ok e.size s := by
  have hrun := lookup_run_of_some hl
  simp only [EStateM.run] at hrun
  simp only [resolveSize, if_neg hne, EStateM.run, bind, EStateM.bind, pure, EStateM.pure, hrun]

theorem live_ne_dangling {s : BlockStore} (hw : s.WellFormed) {h : UInt64} {e : BlockEntry}
    (hl : s.entries.lookup h = some e) : h ≠ danglingHandle := fun heq => by
  have hpos := hw.handle_pos (h, e) (mem_of_lookup hl)
  rw [heq] at hpos
  exact absurd hpos (Nat.lt_irrefl 0)

theorem WellFormed.resolveSize_run {s : BlockStore} (hw : s.WellFormed) {h : UInt64} {e : BlockEntry}
    (hl : s.entries.lookup h = some e) : (resolveSize h).run s = .ok e.size s :=
  resolveSize_run_of_some hl (live_ne_dangling hw hl)

/-! ## One step of compaction

A step of compaction is read off what relocating its entry answered; later proofs take its
outcomes from `compactOne_cases` and the three equations below and never open `compactOne`. -/

section CompactOne

variable {c : Compaction} {h : UInt64} {e : BlockEntry} {s : BlockStore} {a : Arena}

theorem compactOne_run_of_refused {f : Fault}
    (hr : (Arena.relocate e.offset e.layout).run s.arena = .error f a) (hf : f.aborts = false) :
    (compactOne c (h, e)).run s = .ok c { s with arena := a } := by
  simp only [EStateM.run] at hr
  simp only [compactOne, EStateM.run, hr, hf, Bool.false_eq_true, ite_false]

theorem compactOne_run_of_stays {size : Int64}
    (hr : (Arena.relocate e.offset e.layout).run s.arena = .ok (e.offset, size) a) :
    (compactOne c (h, e)).run s = .ok c { s with arena := a } := by
  simp only [EStateM.run] at hr
  simp only [compactOne, EStateM.run, hr, ite_true]

/-- A relocation to another address moves the entry's first `min e.size size` bytes there,
    records the entry at that address and counts it as moved. -/
theorem compactOne_run_of_moved {off size : Int64} {m : Space}
    (hr : (Arena.relocate e.offset e.layout).run s.arena = .ok (off, size) a)
    (hoff : off ≠ e.offset)
    (hm : Memory.move ({ s with arena := a } : BlockStore).space (.offset off.toInt) 0
      (.offset e.offset.toInt) 0 (min e.size size) = .ok m) :
    (compactOne c (h, e)).run s =
      .ok { bytesMoved := c.bytesMoved + min e.size size,
            allocationsMoved := c.allocationsMoved + 1 }
        { ({ s with arena := a } : BlockStore).withSpace m with
          entries := (h, ⟨off, e.layout, size⟩) :: s.entries.filter (·.1 != h) } := by
  simp only [EStateM.run] at hr
  simp only [compactOne, EStateM.run, hr, hoff, ite_false, hm]

variable (c h e s)

/-- Every outcome of one step of compaction. Over the arena the relocation of the entry leaves,
    the entry stays where it is (a refusal, or an answer of its own address); or the step fails
    with the relocation's aborting fault; or the relocation answers another address, and moving
    the entry's first `min e.size size` bytes there fails or records the entry at that address. -/
theorem compactOne_cases :
    (compactOne c (h, e)).run s =
        .ok c { s with arena := Act.leaves (Arena.relocate e.offset e.layout) s.arena } ∨
    (∃ f a, (Arena.relocate e.offset e.layout).run s.arena = .error f a ∧ f.aborts = true ∧
      (compactOne c (h, e)).run s = .error f { s with arena := a }) ∨
    ∃ off size a, (Arena.relocate e.offset e.layout).run s.arena = .ok (off, size) a ∧
      off ≠ e.offset ∧
      ((∃ f, Memory.move ({ s with arena := a } : BlockStore).space (.offset off.toInt) 0
            (.offset e.offset.toInt) 0 (min e.size size) = .error f ∧
          (compactOne c (h, e)).run s = .error f { s with arena := a }) ∨
        ∃ m, Memory.move ({ s with arena := a } : BlockStore).space (.offset off.toInt) 0
            (.offset e.offset.toInt) 0 (min e.size size) = .ok m ∧
          (compactOne c (h, e)).run s =
            .ok { bytesMoved := c.bytesMoved + min e.size size,
                  allocationsMoved := c.allocationsMoved + 1 }
              { ({ s with arena := a } : BlockStore).withSpace m with
                entries := (h, ⟨off, e.layout, size⟩) :: s.entries.filter (·.1 != h) }) := by
  cases hr : (Arena.relocate e.offset e.layout).run s.arena with
  | error f a =>
    rw [Act.leaves_of_error hr]
    cases hf : f.aborts with
    | false => exact .inl (compactOne_run_of_refused hr hf)
    | true =>
      refine .inr (.inl ⟨f, a, rfl, hf, ?_⟩)
      simp only [EStateM.run] at hr
      simp only [compactOne, EStateM.run, hr, hf, ite_true]
  | ok r a =>
    obtain ⟨off, size⟩ := r
    rw [Act.leaves_of_ok hr]
    by_cases hoff : off = e.offset
    · rw [hoff] at hr
      exact .inl (compactOne_run_of_stays hr)
    refine .inr (.inr ⟨off, size, a, rfl, hoff, ?_⟩)
    cases hm : Memory.move ({ s with arena := a } : BlockStore).space (.offset off.toInt) 0
        (.offset e.offset.toInt) 0 (min e.size size) with
    | error f =>
      refine .inl ⟨f, rfl, ?_⟩
      simp only [EStateM.run] at hr
      simp only [compactOne, EStateM.run, hr, hoff, ite_false, hm]
    | ok m => exact .inr ⟨m, rfl, compactOne_run_of_moved hr hoff hm⟩

end CompactOne

end BlockStore

end BlockArena
