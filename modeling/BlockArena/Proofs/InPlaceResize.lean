import BlockArena.Proofs.ResizeContract

/-! # Resizing in place agrees with relocating

A block storage resizes a live allocation in place when its flags allow it and the allocation's
address has the new alignment: growing claims the blocks after the run, shrinking gives back its
tail. Otherwise, or when growing finds no room, it allocates anew and copies. The two paths
cannot be told apart by what they answer and leave:

* every successful resize answers the handle it was given and the bytes of exactly the blocks
  the new layout needs (`BlockStore.WellFormed.resize_answer`), on either path;
* the counters of a well-formed store's arena are determined by the sizes of its live entries
  (`BlockStore.WellFormed.counters_of_sizes`), and a resize changes only its handle's entry;
* the bytes of the kept region, and for a zeroed form every other usable byte, are fixed by the
  resize contract (`BlockStore.WellFormed.keepsResize`).

Together: from one store, a resize that succeeds with resizing in place allowed and one that
succeeds with it forbidden answer the same handle and usable size, leave the same counters, and
leave the same bytes in the kept region and, for a zeroed form, in the whole allocation
(`in_place_resize_agrees_with_relocation`).
-/

set_option autoImplicit false

namespace BlockArena

/-! ## What the resize contract fixes -/

namespace ResizeForm

/-- Two resizes that keep the resize contract from one allocation, and answer the same size,
    agree on every byte of the kept region and, for a zeroed form, on every usable byte. -/
theorem Carries.agree {form : ResizeForm} {old new : Layout} {m : Space} {p : Addr}
    {m₁ m₂ : Space} {p₁ p₂ : Addr} {n : Int64} (hc₁ : form.Carries old new m p m₁ p₁ n)
    (hc₂ : form.Carries old new m p m₂ p₂ n) :
    (∀ i : Nat, (i : Int) < (form.kept old new).size.toInt →
      Memory.byteAt m₁ p₁ ((form.kept old new).dst.toInt + i) =
        Memory.byteAt m₂ p₂ ((form.kept old new).dst.toInt + i)) ∧
    (form.zeroed = true → ∀ j : Int, 0 ≤ j → j < n.toInt →
      Memory.byteAt m₁ p₁ j = Memory.byteAt m₂ p₂ j) := by
  have hkept : ∀ i : Nat, (i : Int) < (form.kept old new).size.toInt →
      Memory.byteAt m₁ p₁ ((form.kept old new).dst.toInt + i) =
        Memory.byteAt m₂ p₂ ((form.kept old new).dst.toInt + i) :=
    fun i hi => (hc₁.kept i hi).trans (hc₂.kept i hi).symm
  refine ⟨hkept, fun hz j hj hjn => ?_⟩
  by_cases hout : j < (form.kept old new).dst.toInt ∨
      (form.kept old new).dst.toInt + (form.kept old new).size.toInt ≤ j
  · -- outside the kept region both cleared the byte
    rw [hc₁.cleared hz j hj hjn hout, hc₂.cleared hz j hj hjn hout]
  · -- inside it both carried the same source byte
    have hi := hkept (j - (form.kept old new).dst.toInt).toNat (by omega)
    rwa [show (form.kept old new).dst.toInt + ((j - (form.kept old new).dst.toInt).toNat : Int) = j
      by omega] at hi

end ResizeForm

namespace BlockStore

/-! ## The counters follow the entries -/

theorem WellFormed.withFlags {s : BlockStore} (hw : s.WellFormed) (flags : Int32) :
    ({ s with flags := flags } : BlockStore).WellFormed :=
  ⟨hw.tracks, hw.placed, hw.handle_pos, hw.handle_lt, hw.nextHandle_pos, hw.keys_nodup⟩

/-- The live handles with the sizes of their entries. -/
def sizes (s : BlockStore) : List (UInt64 × Int64) :=
  s.entries.map fun he => (he.1, he.2.size)

theorem mem_sizes_iff {s : BlockStore} (hnd : (s.entries.map Prod.fst).Nodup) {k : UInt64}
    {n : Int64} : (k, n) ∈ s.sizes ↔ (s.entries.lookup k).map BlockEntry.size = some n := by
  constructor
  · intro hm
    obtain ⟨⟨k', e⟩, hm', heq⟩ := List.mem_map.1 hm
    simp only [Prod.mk.injEq] at heq
    obtain ⟨rfl, rfl⟩ := heq
    rw [lookup_of_mem hnd hm']
    rfl
  · intro hl
    obtain ⟨e, he, rfl⟩ := Option.map_eq_some_iff.1 hl
    exact List.mem_map.2 ⟨(k, e), mem_of_lookup he, rfl⟩

theorem WellFormed.sizes_nodup {s : BlockStore} (hw : s.WellFormed) : s.sizes.Nodup := by
  have hkeys : s.sizes.map Prod.fst = s.entries.map Prod.fst := by
    rw [sizes, List.map_map]
    rfl
  exact List.Nodup.of_map Prod.fst (hkeys ▸ hw.keys_nodup)

/-- The arena of a well-formed store counts its live handles and the blocks of their sizes: two
    well-formed stores over arenas of one block size, whose handles hold entries of the same
    sizes, have the same counters. -/
theorem WellFormed.counters_of_sizes {s₁ s₂ : BlockStore} (hw₁ : s₁.WellFormed)
    (hw₂ : s₂.WellFormed) (hbs : s₁.arena.blockSize = s₂.arena.blockSize)
    (hsizes : ∀ k, (s₁.entries.lookup k).map BlockEntry.size =
      (s₂.entries.lookup k).map BlockEntry.size) :
    s₁.arena.allocationCount = s₂.arena.allocationCount ∧
      s₁.arena.usedBlocks = s₂.arena.usedBlocks := by
  have hperm : s₁.sizes.Perm s₂.sizes :=
    (List.perm_ext_iff_of_nodup hw₁.sizes_nodup hw₂.sizes_nodup).2 fun ⟨k, n⟩ => by
      rw [mem_sizes_iff hw₁.keys_nodup, mem_sizes_iff hw₂.keys_nodup, hsizes k]
  have hcounts : ∀ t : BlockStore, t.liveRuns.map Extent.count =
      t.sizes.map fun p => (p.2 / t.arena.blockSize).toNatClampNeg := fun t => by
    simp only [liveRuns, sizes, List.map_map]
    rfl
  constructor
  · apply Int64.toInt_inj.1
    have hlen := hperm.length_eq
    simp only [sizes, List.length_map] at hlen
    rw [hw₁.allocationCount_eq, hw₂.allocationCount_eq, count, count, hlen]
  · apply Int64.toInt_inj.1
    rw [hw₁.tracks.usedBlocks_eq, hw₂.tracks.usedBlocks_eq, hcounts, hcounts, hbs,
      (hperm.map _).sum_eq]

/-- Two resizes of `h` to one usable size, from stores with the same entries, that leave every
    other handle alone leave entries of the same sizes. -/
theorem Resized.sizes_agree {t₁ t₂ s₁ s₂ : BlockStore} {h : UInt64} {new₁ new₂ : Layout}
    {n : Int64} (hres₁ : Resized t₁ s₁ h new₁ n) (hres₂ : Resized t₂ s₂ h new₂ n)
    (ho₁ : Others h t₁ s₁) (ho₂ : Others h t₂ s₂) (hent : t₁.entries = t₂.entries) (k : UInt64) :
    (s₁.entries.lookup k).map BlockEntry.size = (s₂.entries.lookup k).map BlockEntry.size := by
  by_cases hk : k = h
  · subst hk
    obtain ⟨e₁, hl₁, hs₁⟩ := hres₁.entry
    obtain ⟨e₂, hl₂, hs₂⟩ := hres₂.entry
    rw [hl₁, hl₂, Option.map_some, Option.map_some, hs₁, hs₂]
  · rw [ho₁ k hk, ho₂ k hk, hent]

/-! ## Every path answers the blocks the new layout needs -/

/-- A layout no larger than a live entry rounds up to blocks without overflow: the entry lies in
    the buffer past the table, which takes at least one block. -/
theorem WellFormed.sized_of_le_size {s : BlockStore} (hw : s.WellFormed) {h : UInt64}
    {e : BlockEntry} (hmem : (h, e) ∈ s.entries) {l : Layout} (h0 : 0 ≤ l.size.toInt)
    (hle : l.size.toInt ≤ e.size.toInt) : s.arena.Sized l := by
  have g := hw.geometry
  obtain ⟨htab, hend⟩ := hw.entry_bounds hmem
  have hbs := g.blockSize_pos
  have hcov := g.table_covers
  have htable := g.table_eq
  have hN := g.blockCount_pos
  have hmgmt : 1 ≤ s.arena.managementBlocks.toInt := by
    by_contra hlt
    have h0' : s.arena.managementBlocks.toInt = 0 := by have := g.managementBlocks_nonneg; omega
    rw [h0', Int.zero_mul] at htable
    omega
  have hblock : s.arena.blockSize.toInt ≤ s.arena.managementBlocks.toInt * s.arena.blockSize.toInt :=
    le_mul_of_one_le_left hbs.le hmgmt
  have hbuf := s.arena.bufferSize.toInt_lt
  refine ⟨h0, ?_⟩
  rw [Word.maxInt_toInt]
  omega

section Answer

variable {s : BlockStore} (hw : s.WellFormed) {h : UInt64} {e : BlockEntry}
  (hl : s.entries.lookup h = some e) {old new : Layout} (hnew : s.arena.Sized new)
include hw hl hnew

/-- Growing a live entry in place to a layout that needs more blocks, when there is room,
    answers the bytes of exactly those blocks. -/
theorem WellFormed.growInPlace_answer (hlt : e.size < new.size) {c : Int64} {a' : Arena}
    (hgrow : (Arena.growInPlace e.offset e.layout new).run s.arena =
      .ok (c * s.arena.blockSize, true) a') :
    c * s.arena.blockSize = s.arena.blocksFor new.size * s.arena.blockSize := by
  have g := hw.geometry
  have hmem := mem_of_lookup hl
  have hp := hw.placed _ hmem
  obtain ⟨hpos, hcount, hend⟩ := hw.run_inside hmem
  have hoff := hw.blockOffset_start hmem
  -- the entry's size is its blocks, so a larger layout needs more of them
  have hmore : (s.arena.blocksFor e.layout.size).toInt < (s.arena.blocksFor new.size).toInt := by
    by_contra hge
    have hfits := Arena.size_le_blocksFor_mul g.blockSize_pos hnew.1 hnew.2
    have hmul : (s.arena.blocksFor new.size).toInt * s.arena.blockSize.toInt ≤
        (s.arena.blocksFor e.layout.size).toInt * s.arena.blockSize.toInt :=
      Int.mul_le_mul_of_nonneg_right (by omega) g.blockSize_pos.le
    have hsize : e.size.toInt = (s.arena.blocksFor e.layout.size).toInt * s.arena.blockSize.toInt :=
      hp.size_eq
    have := Int64.lt_iff_toInt_lt.1 hlt
    omega
  rcases @Arena.growInPlace_room _ g (s.arena.runAt e.offset e.size).start e.layout new
      hw.tracks.blockCount_room (by omega) hend (by omega) hmore with
    ⟨-, bytes, -, hgrown⟩ | ⟨-, hnone⟩
  · rw [hoff] at hgrown
    rw [hgrown] at hgrow
    simp only [EStateM.Result.ok.injEq, Prod.mk.injEq] at hgrow
    exact hgrow.1.1.symm
  · rw [hoff, hgrow] at hnone
    simp only [EStateM.Result.ok.injEq, Prod.mk.injEq] at hnone
    exact absurd hnone.1.2 Bool.noConfusion

/-- A successful resize of a live entry of a well-formed store, on any of its paths, answers
    the handle and the bytes of the blocks the new layout needs. -/
theorem WellFormed.resize_answer {grow : Bool} {r : Region}
    (hr : r.Within e.size.toInt new.size.toInt) {a : UInt64 × Int64} {s' : BlockStore}
    (hrun : (BlockStore.resize grow h old new r).run s = .ok a s') :
    a = (h, s.arena.blocksFor new.size * s.arena.blockSize) := by
  by_cases hA : resizesInPlace s e new = true
  · by_cases hlt : e.size < new.size
    · rcases hw.growInPlace_cases (mem_of_lookup hl) new with
        hgrow | ⟨c, bytes, u, hnc, hcend, hgrow, htr⟩
      · -- no room after the run: the entry moves
        rcases hw.resize_relocating hl hnew hr (.inr ⟨hA, hlt, hgrow⟩) with
          ⟨f, -, hf⟩ | ⟨s'', hrun', -⟩
        · rw [hf] at hrun
          cases hrun
        · rw [hrun'] at hrun
          cases hrun
          rfl
      · obtain ⟨s'', hrun', -⟩ := hw.resize_grown hl hnew hr hA hlt hnc hcend hgrow htr
        rw [hrun'] at hrun
        cases hrun
        rw [hw.growInPlace_answer hl hnew hlt hgrow]
    · obtain ⟨s'', hrun', -⟩ := hw.resize_shrunk hl hnew hr hA hlt
      rw [hrun'] at hrun
      cases hrun
      rfl
  · rcases hw.resize_relocating hl hnew hr (.inl (by simpa using hA)) with
      ⟨f, -, hf⟩ | ⟨s'', hrun', -⟩
    · rw [hf] at hrun
      cases hrun
    · rw [hrun'] at hrun
      cases hrun
      rfl

/-- A successful resize in a form of a live entry of a well-formed store answers the handle and
    the bytes of the blocks the new layout needs, leaves the handle resized over the same arena
    but for its buffer and counters, and leaves every other handle's entry alone. -/
theorem WellFormed.resizeWith_outcome {form : ResizeForm} (hold : s.arena.Sized old)
    (hr : (form.kept old new).Within e.size.toInt new.size.toInt) {a : UInt64 × Int64}
    {s' : BlockStore}
    (hrun : (Storage.resizeWith form h old new : Act BlockStore (UInt64 × Int64)).run s =
      .ok a s') :
    a = (h, s.arena.blocksFor new.size * s.arena.blockSize) ∧ Resized s s' h new a.2 ∧
      Others h s s' := by
  obtain ⟨s₁, hplain, -⟩ := resizeBy_run_cases hrun
  have hans := hw.resize_answer hl hnew hr hplain
  refine ⟨hans, ?_, (resizeWith_settles form h old new s a s' hrun).2.2⟩
  rcases hw.resizeWith_cases hl hold hnew hr with ⟨f, -, hf⟩ | ⟨n, s'', hrun', hres⟩
  · rw [hf] at hrun
    cases hrun
  · rw [hrun'] at hrun
    cases hrun
    exact hres

end Answer

/-! ## The two paths agree -/

/-- What two resizes in `form` from `old` to `new`, answering `a₁` and `a₂` and leaving `s₁` and
    `s₂`, agree on: the handle and usable size they answer, the arena's counters, and the bytes of
    the allocations they leave, in the kept region and, for a zeroed form, in all of `[0, n)`. -/
structure ResizesAgree (form : ResizeForm) (old new : Layout) (a₁ a₂ : UInt64 × Int64)
    (s₁ s₂ : BlockStore) : Prop where
  answer_eq : a₁ = a₂
  usedBlocks_eq : s₁.arena.usedBlocks = s₂.arena.usedBlocks
  allocationCount_eq : s₁.arena.allocationCount = s₂.arena.allocationCount
  bytes : ∃ p₁ p₂, (resolve a₁.1).run s₁ = .ok p₁ s₁ ∧ (resolve a₂.1).run s₂ = .ok p₂ s₂ ∧
    (∀ i : Nat, (i : Int) < (form.kept old new).size.toInt →
      Memory.byteAt s₁.space p₁ ((form.kept old new).dst.toInt + i) =
        Memory.byteAt s₂.space p₂ ((form.kept old new).dst.toInt + i)) ∧
    (form.zeroed = true → ∀ j : Int, 0 ≤ j → j < a₁.2.toInt →
      Memory.byteAt s₁.space p₁ j = Memory.byteAt s₂.space p₂ j)

end BlockStore

open BlockStore in
/-- Resizing in place refines relocating. From a well-formed store, take a live handle `h`, a
    form, an old layout no larger than the entry and a new layout that rounds up to blocks
    without overflow, as the caller promises. Whatever the store's flags, in particular with
    resizing in place allowed (so that an aligned allocation grows or shrinks where it is) and
    with it forbidden (so that it always moves), a resize that succeeds answers `h` and the bytes
    of the blocks the new layout needs; two such resizes leave the same counters, the same bytes
    in the kept region, and for a zeroed form the same bytes in the whole allocation. -/
theorem in_place_resize_agrees_with_relocation (s : BlockStore) (hw : s.WellFormed) {h : UInt64}
    {e : BlockEntry} (hl : s.entries.lookup h = some e) {form : ResizeForm} {old new : Layout}
    (hold : old.size.toInt ≤ e.size.toInt) (hnew : s.arena.Sized new) (ha : form.Admits old new)
    (flags₁ flags₂ : Int32) {a₁ a₂ : UInt64 × Int64} {s₁ s₂ : BlockStore}
    (hrun₁ : (Storage.resizeWith form h old new : Act BlockStore (UInt64 × Int64)).run
      { s with flags := flags₁ } = .ok a₁ s₁)
    (hrun₂ : (Storage.resizeWith form h old new : Act BlockStore (UInt64 × Int64)).run
      { s with flags := flags₂ } = .ok a₂ s₂) :
    a₁ = (h, s.arena.blocksFor new.size * s.arena.blockSize) ∧
      ResizesAgree form old new a₁ a₂ s₁ s₂ := by
  have hw₁ := hw.withFlags flags₁
  have hw₂ := hw.withFlags flags₂
  have hmem := mem_of_lookup hl
  have hr : (form.kept old new).Within e.size.toInt new.size.toInt := by
    obtain ⟨h₁, h₂, h₃, h₄, h₅⟩ := ha.kept_within
    exact ⟨h₁, h₂, h₃, by omega, h₅⟩
  have hsold : s.arena.Sized old := hw.sized_of_le_size hmem ha.old_nonneg hold
  obtain ⟨hans₁, hres₁, hothers₁⟩ := hw₁.resizeWith_outcome hl hnew hsold hr hrun₁
  obtain ⟨hans₂, hres₂, hothers₂⟩ := hw₂.resizeWith_outcome hl hnew hsold hr hrun₂
  have hans : a₁ = a₂ := hans₁.trans hans₂.symm
  rw [← hans] at hres₂
  obtain ⟨_, _, _, har₁⟩ := hres₁.arena_eq
  obtain ⟨_, _, _, har₂⟩ := hres₂.arena_eq
  obtain ⟨hcount, hused⟩ := hres₁.wellFormed.counters_of_sizes hres₂.wellFormed
    (by rw [har₁, har₂]) (hres₁.sizes_agree hres₂ hothers₁ hothers₂ rfl)
  obtain ⟨p, hp, hkeep₁⟩ := hw₁.keepsResize hl hold hnew ha
  obtain ⟨p', hp', hkeep₂⟩ := hw₂.keepsResize hl hold hnew ha
  have hres₀₁ : (Storage.resolve h : Act BlockStore Addr).run { s with flags := flags₁ } =
      .ok (.offset e.offset.toInt) { s with flags := flags₁ } := hw₁.resolve_run hl
  have hres₀₂ : (Storage.resolve h : Act BlockStore Addr).run { s with flags := flags₂ } =
      .ok (.offset e.offset.toInt) { s with flags := flags₂ } := hw₂.resolve_run hl
  rw [hres₀₁] at hp
  rw [hres₀₂] at hp'
  cases hp
  cases hp'
  obtain ⟨h₁, n₁⟩ := a₁
  obtain ⟨h₂, n₂⟩ := a₂
  obtain ⟨p₁, hp₁, hc₁⟩ := hkeep₁ h₁ n₁ s₁ hrun₁
  obtain ⟨p₂, hp₂, hc₂⟩ := hkeep₂ h₂ n₂ s₂ hrun₂
  cases hans
  exact ⟨hans₁, rfl, hused, hcount, p₁, p₂, hp₁, hp₂, hc₁.agree hc₂⟩

open BlockStore in
set_option maxRecDepth 20000 in
/-- A store of eight blocks of eight bytes holding one entry of eight bytes at handle `1`: growing
    it to sixteen bytes succeeds with resizing in place allowed and with it forbidden, and the
    two agree. -/
theorem in_place_growth_agrees_with_relocation :
    ∃ s₀ : BlockStore, BlockStore.create (.pinned false false) 8 8 0 = .ok s₀ ∧
      ∃ s₁ s₂ : BlockStore,
        (Storage.resizeWith ⟨true, false, none⟩ 1 ⟨8, 8⟩ ⟨16, 8⟩ :
          Act BlockStore (UInt64 × Int64)).run
          { StoreCall.runAll [.allocate ⟨8, 8⟩] s₀ with flags := 0 } = .ok (1, 16) s₁ ∧
        (Storage.resizeWith ⟨true, false, none⟩ 1 ⟨8, 8⟩ ⟨16, 8⟩ :
          Act BlockStore (UInt64 × Int64)).run
          { StoreCall.runAll [.allocate ⟨8, 8⟩] s₀ with flags := Flags.noInPlaceResize } =
            .ok (1, 16) s₂ ∧
        ResizesAgree ⟨true, false, none⟩ ⟨8, 8⟩ ⟨16, 8⟩ (1, 16) (1, 16) s₁ s₂ := by
  let s₀ : BlockStore :=
    { arena := { blockSize := 8, blockCount := 8, managementBlocks := 1, bufferSize := 72,
                 bufferAlign := 8, bytes := Buffer.zeros 72, tableLength := 8 },
      flags := 0 }
  have hcreate : BlockStore.create (.pinned false false) 8 8 0 = .ok s₀ := rfl
  obtain ⟨hw₀, hnext₀⟩ := WellFormed.of_create hcreate (by decide) (Parent.pinned_servesAtMost _ _)
  obtain ⟨hw, -, -⟩ := hw₀.runAll [.allocate ⟨8, 8⟩] (by rw [hnext₀]; decide)
    ⟨⟨rfl, by simp only [Arena.Sized]; decide⟩, trivial⟩
  have hl : (StoreCall.runAll [.allocate ⟨8, 8⟩] s₀).entries.lookup 1 = some ⟨8, ⟨8, 8⟩, 8⟩ := by
    cbv
  have hnew : (StoreCall.runAll [.allocate ⟨8, 8⟩] s₀).arena.Sized ⟨16, 8⟩ := by
    cbv
    exact ⟨.mk _, .mk _⟩
  have ha : ResizeForm.Admits ⟨true, false, none⟩ ⟨8, 8⟩ ⟨16, 8⟩ :=
    ⟨by decide, by decide, fun _ => by decide, fun h => Bool.noConfusion h,
      fun _ h => by cases h⟩
  have hrun₁ : (Storage.resizeWith ⟨true, false, none⟩ 1 ⟨8, 8⟩ ⟨16, 8⟩ :
      Act BlockStore (UInt64 × Int64)).run
        { StoreCall.runAll [.allocate ⟨8, 8⟩] s₀ with flags := 0 } =
      .ok (1, 16) (Act.leaves (Storage.resizeWith ⟨true, false, none⟩ 1 ⟨8, 8⟩ ⟨16, 8⟩ :
        Act BlockStore (UInt64 × Int64))
          { StoreCall.runAll [.allocate ⟨8, 8⟩] s₀ with flags := 0 }) := by
    cbv
  have hrun₂ : (Storage.resizeWith ⟨true, false, none⟩ 1 ⟨8, 8⟩ ⟨16, 8⟩ :
      Act BlockStore (UInt64 × Int64)).run
        { StoreCall.runAll [.allocate ⟨8, 8⟩] s₀ with flags := Flags.noInPlaceResize } =
      .ok (1, 16) (Act.leaves (Storage.resizeWith ⟨true, false, none⟩ 1 ⟨8, 8⟩ ⟨16, 8⟩ :
        Act BlockStore (UInt64 × Int64))
          { StoreCall.runAll [.allocate ⟨8, 8⟩] s₀ with flags := Flags.noInPlaceResize }) := by
    cbv
  exact ⟨s₀, hcreate, _, _, hrun₁, hrun₂,
    (in_place_resize_agrees_with_relocation _ hw hl (by decide) hnew ha 0 Flags.noInPlaceResize
      hrun₁ hrun₂).2⟩

end BlockArena
