import BlockArena.Proofs.Isolation.Handles

/-! # A call on an address storage leaves the other allocations alone

An address storage hands out the addresses of its arena's runs as handles: a handle is live
while the arena tracks its run (`Tracks`), its bytes are the run's, and it resolves to itself.
Every call writes, past the table, only inside the run it has just been granted: the copy of a
resize, and the clears of an allocation or a resize that clears. So:

* a call that keeps the client's promise, whether it answers or fails, leaves the arena
  tracking every live run it does not name, at the same address and with the same bytes
  (`AddressStore.keepsRuns_run`);
* such a call fails only where the arena refuses the allocation it starts with, and then the
  arena and the memory around it are as they were (`AddressStore.fails_kept`).

`allocations_do_not_interfere` puts this together with what the module `Isolation.Handles`
proves of block storages.
-/

set_option autoImplicit false

namespace BlockArena

/-- The handle a call names: the one it frees or resizes. -/
def Storage.Call.handle? {H : Type} : Storage.Call H → Option H
  | .deallocate h _ => some h
  | .resize _ h _ _ => some h
  | _ => none

namespace Arena

/-- `a'` is `a` with other bytes and counters: the same blocks, at the same offsets. -/
def SameBlocks (a a' : Arena) : Prop :=
  ∃ (bytes : ByteArray) (count used : Int64),
    a' = { a with bytes := bytes, allocationCount := count, usedBlocks := used }

namespace SameBlocks

variable {a a' a'' : Arena}

theorem refl (a : Arena) : a.SameBlocks a := ⟨a.bytes, a.allocationCount, a.usedBlocks, rfl⟩

theorem trans (h₁ : a.SameBlocks a') (h₂ : a'.SameBlocks a'') : a.SameBlocks a'' := by
  obtain ⟨b₁, c₁, u₁, rfl⟩ := h₁
  obtain ⟨b₂, c₂, u₂, rfl⟩ := h₂
  exact ⟨b₂, c₂, u₂, rfl⟩

theorem withBytes (a : Arena) (bytes : ByteArray) : a.SameBlocks { a with bytes := bytes } :=
  ⟨bytes, a.allocationCount, a.usedBlocks, rfl⟩

theorem addr_eq (h : a.SameBlocks a') (x : Extent) : x.addr a' = x.addr a := by
  obtain ⟨_, _, _, rfl⟩ := h
  rfl

theorem blockSize_eq (h : a.SameBlocks a') : a'.blockSize = a.blockSize := by
  obtain ⟨_, _, _, rfl⟩ := h
  rfl

theorem blocksFor_eq (h : a.SameBlocks a') (n : Int64) : a'.blocksFor n = a.blocksFor n := by
  obtain ⟨_, _, _, rfl⟩ := h
  rfl

end SameBlocks

end Arena

/-- Position `j` holds a byte of the run `x` of arena `a`. -/
def Extent.Spans (x : Extent) (a : Arena) (j : Int) : Prop :=
  BlockStore.Span (x.addr a).toInt (x.count * a.blockSize.toInt) j

theorem Arena.SameBlocks.spans_eq {a a' : Arena} (h : a.SameBlocks a') (x : Extent) :
    x.Spans a' = x.Spans a := by
  unfold Extent.Spans
  rw [h.addr_eq, h.blockSize_eq]

namespace Tracks

variable {a : Arena} {live : List Extent}

/-- An allocation from an arena that tracks its live runs, for a layout whose size rounds up
    to whole blocks, refuses and leaves the arena as it was, or answers the address of a run `y`
    of the blocks the layout asks for, and their bytes, which the arena then tracks besides the
    live runs, having written nothing past its table. -/
theorem alloc_grants (ht : Tracks a live) {l : Layout} (hl : a.Sized l) :
    (∃ f, f.Refusal ∧ (Arena.alloc l).run a = .error f a) ∨
    ∃ (y : Extent) (n : Int64) (a' : Arena), (Arena.alloc l).run a = .ok (y.addr a, n) a' ∧
      a.SameBlocks a' ∧ Tracks a' (y :: live) ∧ n.toInt = y.count * a.blockSize.toInt ∧
      l.size.toInt ≤ n.toInt ∧ n = a.blocksFor l.size * a.blockSize ∧
      (y.count : Int) = (a.blocksFor l.size).toInt ∧ a.Spares (fun _ => False) a' := by
  have g := ht.geometry
  have hbs := g.blockSize_pos
  have htr := ht.run_alloc hl
  rcases Arena.alloc_cases g hl.1 hl.2 with hf | ⟨t, bytes, hlt, hfit, -, -, hrun⟩
  · exact .inl hf
  have hpos := Arena.one_le_blocksFor hbs hl.1 hl.2
  have hsize : (a.blocksFor l.size * a.blockSize).toInt =
      (a.blocksFor l.size).toInt * a.blockSize.toInt := g.blocks_toInt (by omega) (by omega)
  have hspares := Arena.alloc_stays l a
  rw [Act.leaves_of_ok hrun] at hspares
  simp only [Call.run, hrun] at htr
  rw [g.runAt_blockOffset (by have := hfit.1; omega) (by omega) (by omega)] at htr
  have hcount : (((a.blocksFor l.size).toInt.toNat : Nat) : Int) = (a.blocksFor l.size).toInt :=
    Int.toNat_of_nonneg (by omega)
  refine .inr ⟨⟨t, (a.blocksFor l.size).toInt.toNat⟩, _, _, hrun, ⟨_, _, _, rfl⟩, htr, ?_, ?_,
    rfl, hcount, hspares⟩
  · rw [hsize, hcount]
  · rw [hsize]
    exact Arena.size_le_blocksFor_mul hbs hl.1 hl.2

theorem spans_disjoint (ht : Tracks a live) {x y : Extent} (hx : x ∈ live) (hy : y ∈ live)
    (hap : x.Apart y) (j : Int) : y.Spans a j → ¬x.Spans a j := by
  have h := ht.spans_apart hx hy hap
  simp only [Extent.Spans, BlockStore.Span]
  omega

theorem fresh_disjoint {y : Extent} (ht : Tracks a (y :: live)) {x : Extent} (hx : x ∈ live)
    (j : Int) : y.Spans a j → ¬x.Spans a j :=
  ht.spans_disjoint (List.mem_cons_of_mem y hx) List.mem_cons_self
    (List.rel_of_pairwise_cons ht.apart hx).symm j

end Tracks

namespace AddressStore

/-- The bytes of the run `x` of the arena, read through its address. -/
def runBytes (s : AddressStore) (x : Extent) : ByteArray :=
  Memory.bytesAt s.space (.offset (x.addr s.arena).toInt) 0
    (x.count * s.arena.blockSize.toNatClampNeg)

/-- A layout a caller may pass: it passes the layout check, and its size rounds up to whole
    blocks without overflow. -/
def Valid (s : AddressStore) (l : Layout) : Prop := l.check = .ok () ∧ s.arena.Sized l

/-- What the client promises for a call on an address storage whose arena tracks the live runs
    `live`: the layouts it passes are valid, an address it frees or resizes is that of a live run
    whose blocks the old layout asks for, and a resize keeps a region that reads inside that run
    and writes inside the new layout. -/
def Allowed (s : AddressStore) (live : List Extent) : Storage.Call Addr → Prop
  | .allocate l => Valid s l
  | .allocateZeroed l => Valid s l
  | .deallocate p l => ∃ x ∈ live, p = .offset (x.addr s.arena).toInt ∧
    (s.arena.blocksFor l.size).toInt = x.count ∧ Valid s l
  | .resize form p old new => ∃ x ∈ live, p = .offset (x.addr s.arena).toInt ∧
    (s.arena.blocksFor old.size).toInt = x.count ∧ Valid s old ∧ Valid s new ∧
    (form.kept old new).Within (x.count * s.arena.blockSize.toInt) new.size.toInt
  | _ => True

/-- `s'` keeps the live runs `live` of `s`, but the one at `p`: its arena tracks some runs
    `live'`, among them every other run of `live`, at the address it had and with the bytes it
    held. -/
def KeepsRuns (live : List Extent) (p : Option Addr) (s s' : AddressStore) : Prop :=
  ∃ live', Tracks s'.arena live' ∧ ∀ x ∈ live, p ≠ some (.offset (x.addr s.arena).toInt) →
    x ∈ live' ∧ x.addr s'.arena = x.addr s.arena ∧ s'.runBytes x = s.runBytes x

theorem KeepsRuns.of_kept {s s' : AddressStore} {live : List Extent} (ht : Tracks s.arena live)
    (hkept : Kept s' = Kept s) (p : Option Addr) : KeepsRuns live p s s' := by
  obtain ⟨harena, haround⟩ := Prod.mk.inj hkept
  have hspace : s'.space = s.space := by
    unfold space
    rw [harena, haround]
  refine ⟨live, by rw [harena]; exact ht, fun x hx _ => ⟨hx, by rw [harena], ?_⟩⟩
  unfold runBytes
  rw [hspace, harena]

/-- A store whose arena has the blocks of `s` and tracks `live'` keeps the live runs of `s`
    but the one at `p` when each of them is in `live'` and outside the positions `W` that
    were written. -/
theorem keepsRuns_of {s s' : AddressStore} {live live' : List Extent} {p : Option Addr}
    {W : Int → Prop} (ht : Tracks s.arena live) (ht' : Tracks s'.arena live')
    (hsame : s.arena.SameBlocks s'.arena) (hsp : s.arena.Spares W s'.arena)
    (hkeep : ∀ x ∈ live, p ≠ some (.offset (x.addr s.arena).toInt) → x ∈ live' ∧
      ∀ j, W j → ¬x.Spans s.arena j) :
    KeepsRuns live p s s' := by
  refine ⟨live', ht', fun x hx hp => ?_⟩
  obtain ⟨hx', hW⟩ := hkeep x hx hp
  refine ⟨hx', hsame.addr_eq x, ?_⟩
  obtain ⟨htab, hend⟩ := ht.run_bounds hx
  have hB := ht.geometry.blockSize_pos
  have hn : ((x.count * s.arena.blockSize.toNatClampNeg : Nat) : Int) =
      x.count * s.arena.blockSize.toInt := by
    rw [← Int64.toNat_toInt]
    push_cast
    rw [Int.toNat_of_nonneg hB.le]
  have hsize : (s'.arena.bytes.size : Int) = s.arena.bytes.size := by rw [hsp.size_eq]
  unfold runBytes Memory.bytesAt
  rw [hsame.addr_eq x, hsame.blockSize_eq]
  refine Space.bytes_congr (by omega) ?_ (by omega) ?_ fun i hi => ?_
  · show _ ≤ (s.arena.bytes.size : Int)
    omega
  · show _ ≤ (s'.arena.bytes.size : Int)
    omega
  -- every byte of the run lies past the table, outside what was written
  refine hsp.byteAt_eq _ (by omega) fun hw => hW _ hw ?_
  simp only [Extent.Spans, BlockStore.Span]
  omega

/-- Memory that differs from the arena's only inside a tracked run `y` leaves the arena tracking
    the same runs, with the same blocks, having written only inside `y`. -/
theorem withSpace_inside {s : AddressStore} {live : List Extent} (ht : Tracks s.arena live)
    {y : Extent} (hy : y ∈ live) {W : Int → Prop} (hW : ∀ j, W j → y.Spans s.arena j) {m : Space}
    (hsize : m.buffer.size = s.arena.bytes.size)
    (hkeep : ∀ k : Nat, ¬W k → Buffer.byteAt m.buffer k = Buffer.byteAt s.arena.bytes k) :
    Tracks (s.withSpace m).arena live ∧ s.arena.SameBlocks (s.withSpace m).arena ∧
      s.arena.Spares W (s.withSpace m).arena := by
  have htab := (ht.run_bounds hy).1
  refine ⟨ht.withBytes hsize fun k hk => hkeep k fun hk' => ?_, .withBytes _ _,
    ⟨rfl, hsize, fun k _ hk => hkeep k hk⟩⟩
  have := hW _ hk'
  simp only [Extent.Spans, BlockStore.Span] at this
  omega

/-- Clearing the bytes `[lo, hi)` of a tracked run `y`, inside it, passes the checks of a clear
    and writes only those bytes. -/
theorem clear_inside {s : AddressStore} {live : List Extent} (ht : Tracks s.arena live)
    {y : Extent} (hy : y ∈ live) {lo hi : Int64} (hlo : 0 ≤ lo.toInt)
    (hhi : hi.toInt ≤ y.count * s.arena.blockSize.toInt) :
    ∃ m, Memory.clear s.space (.offset (y.addr s.arena).toInt) lo hi = .ok m ∧
      Tracks (s.withSpace m).arena live ∧ s.arena.SameBlocks (s.withSpace m).arena ∧
      s.arena.Spares (BlockStore.Span ((y.addr s.arena).toInt + lo.toInt) (hi.toInt - lo.toInt))
        (s.withSpace m).arena := by
  obtain ⟨htab, hend⟩ := ht.run_bounds hy
  have hbuf := ht.geometry.bytes_size
  have hword := s.arena.bufferSize.toInt_lt
  refine ⟨_, Memory.clear_offset _ (by omega) hlo (by omega), withSpace_inside ht hy ?_ ?_ ?_⟩
  · intro j hj
    simp only [Extent.Spans, BlockStore.Span] at hj ⊢
    omega
  · show (if hi ≤ lo then s.space else _).size = s.space.size
    split
    · rfl
    · exact Space.size_fill0 _ _ _
  · intro k hk
    simp only [BlockStore.Span, not_and_or, not_le, not_lt] at hk
    exact BlockStore.byteAt_of_clear rfl (by omega)

/-- The bytes of a region `r` of the run `y` of `s'` are those of the region `r` of the run `x`
    of `s`, read from the region's destination and from its source. -/
def Copies (x y : Extent) (r : Region) (s s' : AddressStore) : Prop :=
  ∀ i : Nat, (i : Int) < r.size.toInt →
    Buffer.byteAt s'.arena.bytes ((y.addr s.arena).toInt + r.dst.toInt + i).toNat =
      Buffer.byteAt s.arena.bytes ((x.addr s.arena).toInt + r.src.toInt + i).toNat

/-- Moving a region that reads inside a tracked run `x` and writes inside a tracked run `y`
    passes the checks of a move, copies the region and writes only inside `y`. -/
theorem move_inside {s : AddressStore} {live : List Extent} (ht : Tracks s.arena live)
    {x y : Extent} (hx : x ∈ live) (hy : y ∈ live) {r : Region}
    (hr : r.Within (x.count * s.arena.blockSize.toInt) (y.count * s.arena.blockSize.toInt)) :
    ∃ m, Memory.move s.space (.offset (y.addr s.arena).toInt) r.dst.toInt
        (.offset (x.addr s.arena).toInt) r.src.toInt r.size = .ok m ∧
      Tracks (s.withSpace m).arena live ∧ s.arena.SameBlocks (s.withSpace m).arena ∧
      s.arena.Spares (y.Spans s.arena) (s.withSpace m).arena ∧ Copies x y r s (s.withSpace m) := by
  obtain ⟨hsrc, hdst, hsize, hsend, hdend⟩ := hr
  obtain ⟨htabx, hendx⟩ := ht.run_bounds hx
  obtain ⟨htaby, hendy⟩ := ht.run_bounds hy
  have hbuf := ht.geometry.bytes_size
  have hword := s.arena.bufferSize.toInt_lt
  obtain ⟨ht', hsame, hsp⟩ := withSpace_inside ht hy (m := Memory.copy s.space
    (.offset (y.addr s.arena).toInt) r.dst.toInt (.offset (x.addr s.arena).toInt) r.src.toInt
    r.size.toInt) (fun _ h => h) (Memory.size_copy _ _ _ _ _ _) fun k hk => by
      simp only [Extent.Spans, BlockStore.Span, not_and_or, not_le, not_lt] at hk
      exact Memory.byteAt_copy _ _ _ _ _ _ (by omega)
  refine ⟨_, Memory.move_offset _ hsize (by omega) (by omega) (by omega) (by omega), ht', hsame,
    hsp, fun i hi => ?_⟩
  have hsz : (s.space.size : Int) = s.arena.bytes.size := rfl
  exact Memory.byteAt_copy_of_mem _ (by omega) (by omega) (by omega) (by omega) hi

/-! ## Each call -/

theorem onArena_run {α : Type} (act : Act Arena α) (s : AddressStore) :
    (onArena act).run s = match act.run s.arena with
      | .ok x a => .ok x { s with arena := a }
      | .error f a => .error f { s with arena := a } := by
  unfold onArena
  rw [Act.run_focus]
  cases act.run s.arena <;> rfl

/-! The requests of an address storage, spelled out over the arena. -/

theorem allocate_eq (l : Layout) : allocate l = (do
    bump
    let (off, n) ← onArena (Arena.alloc l)
    pure (Addr.offset off.toInt, n)) := rfl

theorem deallocate_offset_eq (off : Int) (l : Layout) :
    deallocate (.offset off) l = (do bump; onArena (Arena.dealloc (Int64.ofInt off) l)) := rfl

theorem backing_memory (s : AddressStore) : backing.memory s = s.space := rfl

theorem backing_setMemory (s : AddressStore) (m : Space) : backing.setMemory s m = s.withSpace m :=
  rfl

theorem resize_eq (grow : Bool) (p : Addr) (old new : Layout) (r : Region) :
    resize grow p old new r = (do
      let (p', n) ← allocate new
      let s ← get
      let m ← Act.ofExcept (Memory.move s.space p' r.dst.toInt p r.src.toInt r.size)
      set (s.withSpace m)
      deallocate p old
      pure (p', n)) := rfl

theorem allocate_run (l : Layout) (s : AddressStore) :
    (allocate l).run s = match (Arena.alloc l).run s.arena with
      | .ok (off, n) a => .ok (Addr.offset off.toInt, n) { s with epoch := s.epoch + 1, arena := a }
      | .error f a => .error f { s with epoch := s.epoch + 1, arena := a } := by
  rw [allocate_eq]
  unfold bump
  rw [Act.run_bind_ok (Act.run_modify _ _)]
  cases h : (Arena.alloc l).run s.arena with
  | ok r a =>
    have hf : (onArena (Arena.alloc l)).run { s with epoch := s.epoch + 1 } =
        .ok r { s with epoch := s.epoch + 1, arena := a } := by
      rw [onArena_run]
      simp only [h]
    rw [Act.run_bind_ok hf]
    rfl
  | error f a =>
    have hf : (onArena (Arena.alloc l)).run { s with epoch := s.epoch + 1 } =
        .error f { s with epoch := s.epoch + 1, arena := a } := by
      rw [onArena_run]
      simp only [h]
    rw [Act.run_bind_error hf]

theorem deallocate_run (off : Int64) (l : Layout) (s : AddressStore) :
    (deallocate (.offset off.toInt) l).run s = match (Arena.dealloc off l).run s.arena with
      | .ok u a => .ok u { s with epoch := s.epoch + 1, arena := a }
      | .error f a => .error f { s with epoch := s.epoch + 1, arena := a } := by
  rw [deallocate_offset_eq]
  unfold bump
  rw [Act.run_bind_ok (Act.run_modify _ _), Int64.ofInt_toInt, onArena_run]
  cases (Arena.dealloc off l).run s.arena <;> rfl

theorem zero_run {s : AddressStore} {p : Addr} {lo hi : Int64} {m : Space}
    (h : Memory.clear s.space p lo hi = .ok m) :
    (Storage.zero p lo hi : Act AddressStore Unit).run s = .ok () (s.withSpace m) := by
  have h' : Memory.clear (Storage.memory s) p lo hi = .ok m := h
  simp only [Storage.zero, EStateM.run, bind, EStateM.bind, get, getThe, MonadStateOf.get,
    EStateM.get, Act.ofExcept, h', modify, modifyGet, MonadStateOf.modifyGet, EStateM.modifyGet,
    pure, EStateM.pure]
  rfl

section Calls

variable {s : AddressStore} {live : List Extent}

/-- An allocation of a layout that rounds up to whole blocks refuses, having only counted, or
    answers the address of a fresh run `y` of the blocks the layout asks for, and their bytes,
    having written nothing past the table. -/
theorem allocate_cases (ht : Tracks s.arena live) {l : Layout} (hl : s.arena.Sized l) :
    (∃ f, (allocate l).run s = .error f { s with epoch := s.epoch + 1 }) ∨
    ∃ (y : Extent) (n : Int64) (a' : Arena),
      (allocate l).run s = .ok (.offset (y.addr s.arena).toInt, n)
        { s with epoch := s.epoch + 1, arena := a' } ∧
      s.arena.SameBlocks a' ∧ Tracks a' (y :: live) ∧
      n.toInt = y.count * s.arena.blockSize.toInt ∧ l.size.toInt ≤ n.toInt ∧
      n = s.arena.blocksFor l.size * s.arena.blockSize ∧
      (y.count : Int) = (s.arena.blocksFor l.size).toInt ∧
      s.arena.Spares (fun _ => False) a' := by
  rcases ht.alloc_grants hl with
    ⟨f, -, hf⟩ | ⟨y, n, a', hrun, hsame, ht', hn, hle, hnb, hcount, hsp⟩
  · exact .inl ⟨f, by rw [allocate_run, hf]⟩
  · exact .inr ⟨y, n, a', by rw [allocate_run, hrun], hsame, ht', hn, hle, hnb, hcount, hsp⟩

/-- A zeroed allocation refuses as the allocation does, or clears the fresh run it answers and
    nothing else past the table. -/
theorem allocateZeroed_cases (ht : Tracks s.arena live) {l : Layout} (hl : s.arena.Sized l) :
    (∃ f, (Storage.allocateZeroed l : Act AddressStore (Addr × Int64)).run s =
      .error f { s with epoch := s.epoch + 1 }) ∨
    ∃ (y : Extent) (n : Int64) (s' : AddressStore),
      (Storage.allocateZeroed l : Act AddressStore (Addr × Int64)).run s =
        .ok (.offset (y.addr s.arena).toInt, n) s' ∧
      s.arena.SameBlocks s'.arena ∧ Tracks s'.arena (y :: live) ∧
      n = s.arena.blocksFor l.size * s.arena.blockSize ∧
      (y.count : Int) = (s.arena.blocksFor l.size).toInt ∧
      s.arena.Spares (y.Spans s.arena) s'.arena := by
  rcases allocate_cases ht hl with
    ⟨f, hf⟩ | ⟨y, n, a', hrun, hsame, ht', hn, -, hnb, hcount, hsp⟩
  · refine .inl ⟨f, ?_⟩
    unfold Storage.allocateZeroed
    exact Act.run_bind_error hf
  obtain ⟨m, hclear, ht'', hsame', hsp'⟩ :=
    @clear_inside { s with epoch := s.epoch + 1, arena := a' } _ ht' _ List.mem_cons_self 0 n
      (by decide) (by dsimp only; rw [hsame.blockSize_eq]; omega)
  dsimp only at hclear ht'' hsame' hsp'
  rw [hsame.addr_eq] at hclear hsp'
  have hsp'' : a'.Spares (y.Spans s.arena) _ := hsp'.mono fun j hj => by
    simp only [Extent.Spans, BlockStore.Span, Int64.toInt_zero] at hj ⊢
    omega
  refine .inr ⟨y, n, _, ?_, hsame.trans hsame', ht'', hnb, hcount,
    trans_of (Arena.Spares _) hsp.of_none hsp''⟩
  have hrun' : (Storage.allocate l : Act AddressStore (Addr × Int64)).run s = _ := hrun
  unfold Storage.allocateZeroed
  rw [Act.run_bind_ok hrun']
  exact Act.run_bind_ok (zero_run hclear)

/-- A free of a tracked run, for a layout that asks for its blocks, answers and gives its blocks
    back, writing nothing past the table. -/
theorem deallocate_ok (ht : Tracks s.arena live) {x : Extent} (hx : x ∈ live) {l : Layout}
    (hl : (s.arena.blocksFor l.size).toInt = x.count) :
    ∃ a', (deallocate (.offset (x.addr s.arena).toInt) l).run s =
        .ok () { s with epoch := s.epoch + 1, arena := a' } ∧
      s.arena.SameBlocks a' ∧ Tracks a' (live.erase x) ∧ s.arena.Spares (fun _ => False) a' := by
  obtain ⟨bytes, hrun, ht'⟩ := ht.dealloc_ok hx hl
  have hsp := Arena.dealloc_stays (x.addr s.arena) l s.arena
  rw [Act.leaves_of_ok hrun] at hsp
  exact ⟨_, by rw [deallocate_run, hrun], ⟨_, _, _, rfl⟩, ht', hsp⟩

/-- What a move from the tracked run `x` to a fresh run `y` of `n` bytes leaves: the arena, with
    the same blocks, tracks `y` in place of `x`; past the table it wrote only inside `y`, which
    shares no byte with the runs tracked before, and it copied the region `r`. -/
structure Moved (live : List Extent) (x y : Extent) (n : Int64) (r : Region)
    (s s' : AddressStore) : Prop where
  sameBlocks : s.arena.SameBlocks s'.arena
  tracks : Tracks s'.arena ((y :: live).erase x)
  ne : y ≠ x
  size_eq : n.toInt = y.count * s.arena.blockSize.toInt
  spares : s.arena.Spares (y.Spans s.arena) s'.arena
  fresh : ∀ x' ∈ live, ∀ j, y.Spans s.arena j → ¬x'.Spans s.arena j
  copies : Copies x y r s s'

theorem resize_cases (ht : Tracks s.arena live) {x : Extent} (hx : x ∈ live) {old new : Layout}
    (hold : (s.arena.blocksFor old.size).toInt = x.count) (hnew : s.arena.Sized new) {r : Region}
    (hr : r.Within (x.count * s.arena.blockSize.toInt) new.size.toInt) (grow : Bool) :
    (∃ f, (resize grow (.offset (x.addr s.arena).toInt) old new r).run s =
      .error f { s with epoch := s.epoch + 1 }) ∨
    ∃ (y : Extent) (n : Int64) (s' : AddressStore),
      (resize grow (.offset (x.addr s.arena).toInt) old new r).run s =
        .ok (.offset (y.addr s.arena).toInt, n) s' ∧
      new.size.toInt ≤ n.toInt ∧ n = s.arena.blocksFor new.size * s.arena.blockSize ∧
      (y.count : Int) = (s.arena.blocksFor new.size).toInt ∧ Moved live x y n r s s' := by
  rcases allocate_cases ht hnew with
    ⟨f, hf⟩ | ⟨y, n, a₁, hrun₁, hsame₁, ht₁, hn, hle, hnb, hcount, hsp₁⟩
  · refine .inl ⟨f, ?_⟩
    rw [resize_eq]
    exact Act.run_bind_error hf
  have hx₁ : x ∈ y :: live := List.mem_cons_of_mem y hx
  have hB := hsame₁.blockSize_eq
  obtain ⟨hsrc, hdst, hsize, hsend, hdend⟩ := hr
  obtain ⟨m, hmove, ht₂, hsame₂, hsp₂, hcopy⟩ := move_inside
    (s := { s with epoch := s.epoch + 1, arena := a₁ }) ht₁ hx₁ List.mem_cons_self (r := r)
    ⟨hsrc, hdst, hsize, by dsimp only; rw [hB]; omega, by dsimp only; rw [hB]; omega⟩
  dsimp only at hmove ht₂ hsame₂ hsp₂ hcopy
  rw [hsame₁.addr_eq, hsame₁.addr_eq] at hmove
  rw [hsame₁.spans_eq] at hsp₂
  obtain ⟨a₃, hrun₃, hsame₃, ht₃, hsp₃⟩ := deallocate_ok
    (s := { s with epoch := s.epoch + 1, arena := a₁ }.withSpace m) ht₂ hx₁ (l := old)
    (by rw [(hsame₁.trans hsame₂).blocksFor_eq]; exact hold)
  rw [(hsame₁.trans hsame₂).addr_eq] at hrun₃
  refine .inr ⟨y, n, { { s with epoch := s.epoch + 1, arena := a₁ }.withSpace m with
    epoch := s.epoch + 1 + 1, arena := a₃ }, ?_, hle, hnb, hcount,
    ⟨(hsame₁.trans hsame₂).trans hsame₃, ht₃, ?_, hn, ?_, ?_, ?_⟩⟩
  · rw [resize_eq, Act.run_bind_ok hrun₁]
    simp only [EStateM.run] at hrun₃
    simp only [EStateM.run, bind, EStateM.bind, get, getThe, MonadStateOf.get, EStateM.get,
      Act.ofExcept, hmove, set, MonadStateOf.set, EStateM.set, pure, EStateM.pure, hrun₃]
    rfl
  · -- the fresh run lies apart from the old one, which holds blocks
    intro hyx
    have hap := List.rel_of_pairwise_cons ht₁.apart hx
    have hpos := (ht.inside x hx).1
    rw [hyx] at hap
    simp only [Extent.Apart] at hap
    omega
  · exact trans_of (Arena.Spares _) hsp₁.of_none (trans_of (Arena.Spares _) hsp₂ hsp₃.of_none)
  · intro x' hx' j
    have h := ht₁.fresh_disjoint hx' j
    rwa [hsame₁.spans_eq, hsame₁.spans_eq] at h
  · -- the copied bytes lie past the table, where the allocation and the free wrote nothing
    intro i hi
    unfold Copies at hcopy
    dsimp only at hcopy
    rw [hsame₁.addr_eq, hsame₁.addr_eq] at hcopy
    have htab := (ht.run_bounds hx).1
    have hyb := (ht₁.run_bounds List.mem_cons_self).1
    rw [hsame₁.addr_eq] at hyb
    have htab₁ := hsp₁.tableLength_eq
    have htab₂ := hsp₂.tableLength_eq
    show Buffer.byteAt a₃.bytes _ = _
    rw [hsp₃.byteAt_eq _ (by omega) id, hcopy i hi, hsp₁.byteAt_eq _ (by omega) id]

theorem Moved.clear {x y : Extent} {n : Int64} {r : Region} {s₁ : AddressStore}
    (hm : Moved live x y n r s s₁) (hdst : 0 ≤ r.dst.toInt) {lo hi : Int64} (hlo : 0 ≤ lo.toInt)
    (hhi : hi.toInt ≤ n.toInt)
    (hapart : hi.toInt ≤ r.dst.toInt ∨ r.dst.toInt + r.size.toInt ≤ lo.toInt) :
    ∃ m, Memory.clear s₁.space (.offset (y.addr s.arena).toInt) lo hi = .ok m ∧
      Moved live x y n r s (s₁.withSpace m) := by
  have hy : y ∈ (y :: live).erase x := (List.mem_erase_of_ne hm.ne).2 List.mem_cons_self
  have hsize := hm.size_eq
  have hytab := (hm.tracks.run_bounds hy).1
  have hhi' : hi.toInt ≤ y.count * s₁.arena.blockSize.toInt := by
    rw [hm.sameBlocks.blockSize_eq]
    omega
  obtain ⟨m, hclear, ht', hsame', hsp'⟩ := clear_inside hm.tracks hy hlo hhi'
  rw [hm.sameBlocks.addr_eq] at hclear hsp' hytab
  refine ⟨m, hclear, ⟨hm.sameBlocks.trans hsame', ht', hm.ne, hsize, ?_, hm.fresh, ?_⟩⟩
  · refine trans_of (Arena.Spares _) hm.spares (hsp'.mono fun j hj => ?_)
    simp only [Extent.Spans, BlockStore.Span] at hj ⊢
    omega
  · -- the clear misses the copied region
    intro i hi'
    refine (hsp'.byteAt_eq ((y.addr s.arena).toInt + r.dst.toInt + i).toNat (by omega)
      fun hj => ?_).trans (hm.copies i hi')
    simp only [BlockStore.Span] at hj
    omega

/-- A resize in any form refuses as the plain resize does, or moves the allocation as the plain
    resize does, clearing for a zeroed form only bytes of the fresh run outside the kept
    region. -/
theorem resizeWith_cases (ht : Tracks s.arena live) {x : Extent} (hx : x ∈ live)
    {old new : Layout} (hold : (s.arena.blocksFor old.size).toInt = x.count)
    (hnew : s.arena.Sized new) {form : ResizeForm}
    (hr : (form.kept old new).Within (x.count * s.arena.blockSize.toInt) new.size.toInt) :
    (∃ f, (Storage.resizeWith form (.offset (x.addr s.arena).toInt) old new :
      Act AddressStore (Addr × Int64)).run s = .error f { s with epoch := s.epoch + 1 }) ∨
    ∃ (y : Extent) (n : Int64) (s' : AddressStore),
      (Storage.resizeWith form (.offset (x.addr s.arena).toInt) old new :
        Act AddressStore (Addr × Int64)).run s = .ok (.offset (y.addr s.arena).toInt, n) s' ∧
      new.size.toInt ≤ n.toInt ∧ n = s.arena.blocksFor new.size * s.arena.blockSize ∧
      (y.count : Int) = (s.arena.blocksFor new.size).toInt ∧
      Moved live x y n (form.kept old new) s s' := by
  rcases resize_cases ht hx hold hnew hr form.grow with
    ⟨f, hf⟩ | ⟨y, n, s₁, hrun, hle, hn, hcount, hm⟩
  · exact .inl ⟨f, Act.run_bind_error hf⟩
  obtain ⟨-, hdst, hsize, -, hdend⟩ := hr
  simp only [EStateM.run] at hrun
  unfold resize at hrun
  cases hz : form.zeroed with
  | false =>
    refine .inr ⟨y, n, s₁, ?_, hle, hn, hcount, hm⟩
    simp only [Storage.resizeWith, resizeBy, EStateM.run, bind, EStateM.bind, hrun, hz,
      Bool.false_eq_true, ite_false, pure, EStateM.pure]
  | true =>
    cases hreg : form.region with
    | none =>
      have hkept : form.kept old new =
          Region.prefixOf (if form.grow = true then old.size else new.size) := by
        simp only [ResizeForm.kept, hreg, Option.getD_none]
      rw [hkept] at hm hsize hdend
      simp only [Region.prefixOf, Int64.toInt_zero, Int.zero_add] at hsize hdend
      obtain ⟨m, hclear, hm'⟩ := hm.clear (by show (0 : Int) ≤ (0 : Int64).toInt; decide) hsize
        le_rfl (.inr (by simp only [Region.prefixOf, Int64.toInt_zero, Int.zero_add]; omega))
      refine .inr ⟨y, n, _, ?_, hle, hn, hcount, hkept ▸ hm'⟩
      simp only [Storage.resizeWith, resizeBy, EStateM.run, bind, EStateM.bind, hrun, hz,
        ite_true, hreg, get, getThe, MonadStateOf.get, EStateM.get, Act.ofExcept, backing_memory, backing_setMemory,
        hclear, pure, EStateM.pure, modify, modifyGet, MonadStateOf.modifyGet, EStateM.modifyGet]
    | some r =>
      have hkept : form.kept old new = r := by
        simp only [ResizeForm.kept, hreg, Option.getD_some]
      rw [hkept] at hm hdst hsize hdend
      have hsum : (r.dst + r.size).toInt = r.dst.toInt + r.size.toInt := by
        have hmax := hnew.2
        have hbs := ht.geometry.blockSize_pos
        rw [Word.maxInt_toInt] at hmax
        exact Word.toInt_add_of_fits ⟨by omega, by omega⟩
      obtain ⟨m₁, hclear₁, hm₁⟩ := hm.clear hdst (show (0 : Int) ≤ (0 : Int64).toInt by decide)
        (show r.dst.toInt ≤ n.toInt by omega) (.inl le_rfl)
      obtain ⟨m₂, hclear₂, hm₂⟩ := hm₁.clear hdst (show 0 ≤ (r.dst + r.size).toInt by omega)
        (show n.toInt ≤ n.toInt from le_rfl) (.inr (by omega))
      refine .inr ⟨y, n, _, ?_, hle, hn, hcount, hkept ▸ hm₂⟩
      simp only [Storage.resizeWith, resizeBy, EStateM.run, bind, EStateM.bind, hrun, hz,
        ite_true, hreg, get, getThe, MonadStateOf.get, EStateM.get, Act.ofExcept, backing_memory, backing_setMemory,
        hclear₁, hclear₂, pure, EStateM.pure, modify, modifyGet, MonadStateOf.modifyGet,
        EStateM.modifyGet]

theorem Moved.keepsRuns (ht : Tracks s.arena live) {x y : Extent} {n : Int64} {r : Region}
    {s' : AddressStore} (hm : Moved live x y n r s s') :
    KeepsRuns live (some (.offset (x.addr s.arena).toInt)) s s' :=
  keepsRuns_of ht hm.tracks hm.sameBlocks hm.spares fun x' hx' hne =>
    ⟨(List.mem_erase_of_ne fun h => hne (by rw [h])).2 (List.mem_cons_of_mem y hx'),
      hm.fresh x' hx'⟩

end Calls

/-! ## Every call -/

section Every

variable {s : AddressStore} {live : List Extent} {c : Storage.Call Addr}

/-- Every call a client may make fails, leaving the arena and the memory around it as they
    were, or answers, keeping every live run it does not name. -/
theorem call_cases (ht : Tracks s.arena live) (hc : Allowed s live c) :
    (∃ f s', (c.op (σ := AddressStore)).act.run s = .error f s' ∧ Kept s' = Kept s) ∨
    ∃ a s', (c.op (σ := AddressStore)).act.run s = .ok a s' ∧ KeepsRuns live c.handle? s s' := by
  cases c with
  | dangling align =>
    show (∃ f s', (Act.ofExcept (Addr.danglingFor align) : Act AddressStore Addr).run s =
      .error f s' ∧ _) ∨ ∃ a s', (Act.ofExcept (Addr.danglingFor align) : Act AddressStore Addr).run s = .ok a s' ∧ _
    cases Addr.danglingFor align with
    | ok p => exact .inr ⟨p, s, rfl, .of_kept ht rfl _⟩
    | error f => exact .inl ⟨f, s, rfl, rfl⟩
  | resolve h => exact .inr ⟨h, s, rfl, .of_kept ht rfl _⟩
  | sizeOf h => exact .inr ⟨(0 : Int64), s, rfl, .of_kept ht rfl _⟩
  | allocate l =>
    rcases allocate_cases ht hc.2 with ⟨f, hf⟩ | ⟨y, n, a', hrun, hsame, ht', -, -, -, -, hsp⟩
    · exact .inl ⟨f, _, hf, rfl⟩
    · exact .inr ⟨_, _, hrun, keepsRuns_of ht ht' hsame hsp fun x hx _ =>
        ⟨List.mem_cons_of_mem y hx, fun _ h => h.elim⟩⟩
  | allocateZeroed l =>
    rcases allocateZeroed_cases ht hc.2 with ⟨f, hf⟩ | ⟨y, n, s', hrun, hsame, ht', -, -, hsp⟩
    · exact .inl ⟨f, _, hf, rfl⟩
    · refine .inr ⟨_, _, hrun, keepsRuns_of ht ht' hsame hsp fun x hx _ =>
        ⟨List.mem_cons_of_mem y hx, ?_⟩⟩
      -- the cleared run is fresh, apart from every live run
      have h := ht'.fresh_disjoint hx
      rwa [hsame.spans_eq, hsame.spans_eq] at h
  | deallocate p l =>
    obtain ⟨x, hx, rfl, hl, -⟩ := hc
    obtain ⟨a', hrun, hsame, ht', hsp⟩ := deallocate_ok ht hx hl
    exact .inr ⟨_, _, hrun, keepsRuns_of ht ht' hsame hsp fun x' hx' hne =>
      ⟨(List.mem_erase_of_ne fun h => hne (by rw [h]; rfl)).2 hx', fun _ h => h.elim⟩⟩
  | resize form p old new =>
    obtain ⟨x, hx, rfl, hold, -, hnew, hr⟩ := hc
    rcases resizeWith_cases ht hx hold hnew.2 hr with ⟨f, hf⟩ | ⟨y, n, s', hrun, -, -, -, hm⟩
    · exact .inl ⟨f, _, hf, rfl⟩
    · exact .inr ⟨_, _, hrun, hm.keepsRuns ht⟩

/-- Whatever a call a client may make does, it keeps every live run it does not name, at the
    address it had and with the bytes it held. -/
theorem keepsRuns_run (ht : Tracks s.arena live) (hc : Allowed s live c) :
    KeepsRuns live c.handle? s ((c.op (σ := AddressStore)).run s) := by
  rcases call_cases ht hc with ⟨f, s', hrun, hkept⟩ | ⟨a, s', hrun, hkeeps⟩
  · rw [Op.run, Act.leaves_of_error hrun]
    exact .of_kept ht hkept _
  · rw [Op.run, Act.leaves_of_ok hrun]
    exact hkeeps

/-- A call a client may make that fails leaves the arena and the memory around it as they
    were: it changes no byte of any allocation. -/
theorem fails_kept (ht : Tracks s.arena live) (hc : Allowed s live c) {f : Fault}
    {s' : AddressStore} (hrun : (c.op (σ := AddressStore)).act.run s = .error f s') :
    Kept s' = Kept s := by
  rcases call_cases ht hc with ⟨f', s'', hrun', hkept⟩ | ⟨a, s'', hrun', -⟩
  · rw [hrun] at hrun'
    cases hrun'
    exact hkept
  · rw [hrun] at hrun'
    cases hrun'

end Every

end AddressStore

/-! ## Both storages -/

/-- Allocations do not interfere. On a well-formed block storage with handle numbers left, a
    call that keeps the client's promise, answered or failed, leaves every live handle it does
    not name live, with the usable size it had and the same bytes that far past the address it
    resolves to; only compaction moves that address, and a call that fails leaves the whole
    store as it was. On an address storage whose arena tracks the live runs, such a call leaves
    every live run it does not name tracked, at its address and with its bytes, and one that
    fails leaves the arena and the memory around it as they were. -/
theorem allocations_do_not_interfere :
    (∀ (s : BlockStore) (c : StoreCall), s.WellFormed → s.nextHandle.toNat + 1 < 2 ^ 64 →
      c.Allowed s →
      (∀ (k : UInt64) (p : Addr) (n : Int64), (∃ e, s.entries.lookup k = some e) →
        c.handle? ≠ some k → (BlockStore.resolve k).run s = .ok p s →
        (BlockStore.resolveSize k).run s = .ok n s →
        ∃ p', (BlockStore.resolve k).run (c.run s) = .ok p' (c.run s) ∧
          (BlockStore.resolveSize k).run (c.run s) = .ok n (c.run s) ∧
          Memory.bytesAt (c.run s).space p' 0 n.toNatClampNeg =
            Memory.bytesAt s.space p 0 n.toNatClampNeg ∧
          (c ≠ .compact → p' = p)) ∧
      ∀ (f : Fault) (s' : BlockStore), c.op.act.run s = .error f s' → s' = s) ∧
    (∀ (s : AddressStore) (live : List Extent) (c : Storage.Call Addr), Tracks s.arena live →
      AddressStore.Allowed s live c →
      AddressStore.KeepsRuns live c.handle? s ((c.op (σ := AddressStore)).run s) ∧
      ∀ (f : Fault) (s' : AddressStore), (c.op (σ := AddressStore)).act.run s = .error f s' →
        AddressStore.Kept s' = AddressStore.Kept s) :=
  ⟨fun _ _ hw hroom hc =>
      ⟨fun _ _ _ hlive hk hp hn => StoreCall.reads_others hw hroom hc hlive hk hp hn,
        fun _ _ hrun => StoreCall.fails_unchanged hw hroom hc hrun⟩,
    fun _ _ _ ht hc => ⟨AddressStore.keepsRuns_run ht hc, fun _ _ hrun => AddressStore.fails_kept ht hc hrun⟩⟩

/-- A store of eight blocks of eight bytes after one request for 16 bytes is compacted: every
    live handle keeps its size and its bytes, and the compaction does not fail. -/
theorem compaction_after_allocation_keeps_bytes :
    ∃ s₀ : BlockStore, BlockStore.create (.pinned false false) 8 8 0 = .ok s₀ ∧
      ∀ (k : UInt64) (p : Addr) (n : Int64),
        (∃ e, (StoreCall.runAll [.allocate ⟨16, 8⟩] s₀).entries.lookup k = some e) →
        (BlockStore.resolve k).run (StoreCall.runAll [.allocate ⟨16, 8⟩] s₀) =
          .ok p (StoreCall.runAll [.allocate ⟨16, 8⟩] s₀) →
        (BlockStore.resolveSize k).run (StoreCall.runAll [.allocate ⟨16, 8⟩] s₀) =
          .ok n (StoreCall.runAll [.allocate ⟨16, 8⟩] s₀) →
        ∃ p', (BlockStore.resolveSize k).run
            (StoreCall.compact.run (StoreCall.runAll [.allocate ⟨16, 8⟩] s₀)) =
            .ok n (StoreCall.compact.run (StoreCall.runAll [.allocate ⟨16, 8⟩] s₀)) ∧
          Memory.bytesAt (StoreCall.compact.run (StoreCall.runAll [.allocate ⟨16, 8⟩] s₀)).space
            p' 0 n.toNatClampNeg =
            Memory.bytesAt (StoreCall.runAll [.allocate ⟨16, 8⟩] s₀).space p 0 n.toNatClampNeg := by
  let s₀ : BlockStore :=
    { arena := { blockSize := 8, blockCount := 8, managementBlocks := 1, bufferSize := 72,
                 bufferAlign := 8, bytes := Buffer.zeros 72, tableLength := 8 },
      flags := 0 }
  have hcreate : BlockStore.create (.pinned false false) 8 8 0 = .ok s₀ := rfl
  obtain ⟨hw₀, hnext₀⟩ := BlockStore.WellFormed.of_create hcreate
    (by decide) (Parent.pinned_servesAtMost _ _)
  obtain ⟨hw, -, hle⟩ := hw₀.runAll [.allocate ⟨16, 8⟩] (by rw [hnext₀]; decide)
    ⟨⟨rfl, by simp only [Arena.Sized]; decide⟩, trivial⟩
  have hone : s₀.nextHandle.toNat = 1 := by rw [hnext₀]; rfl
  rw [hone, List.length_singleton] at hle
  refine ⟨s₀, hcreate, fun k p n hlive hp hn => ?_⟩
  obtain ⟨p', -, hn', hbytes, -⟩ :=
    (allocations_do_not_interfere.1 _ .compact hw (by omega) trivial).1 k p n hlive
      (by simp [StoreCall.handle?]) hp hn
  exact ⟨p', hn', hbytes⟩

end BlockArena
