import BlockArena.Proofs.Compaction

/-! # Moving and resizing a live run

Three requests name a live run by the address of its first block, with a layout that asks for
exactly its blocks, and `Arena.RunSpec` says what each does. `relocate` clears the run, then the
first block that starts a fit takes it; with no fit it is refused and the arena is as it was, so
a run whose first block is aligned always moves, and never upward. `growInPlace` succeeds at once
when the run has the blocks already, else exactly when there is room after it
(`Arena.RoomAfter`), claiming the blocks past it. `shrinkInPlace` clears the tail past the new
count; a layout of negative size can ask for a negative count, and then the table index is
negative.

The main statement, `tracked_run_requests_meet_spec`, holds for every live run of every arena
that tracks its live runs.
-/

set_option autoImplicit false

namespace BlockArena

namespace Arena

/-- What the requests that name the run `x`, with a layout `l` of its blocks, do to the arena
    `a`. -/
structure RunSpec (a : Arena) (x : Extent) (l : Layout) : Prop where
  /-- Relocating clears the run's blocks, then takes the first fit in the cleared table; with no
      fit it is refused, and the arena is as it was. -/
  relocate : ∃ bytes₁ : ByteArray, a.Marked bytes₁ x.start x.count false ∧
    ((∃ (t : Nat) (bytes₂ : ByteArray),
        FitsAt { a with bytes := bytes₁ } (a.blocksFor l.size) l.align t ∧
        (∀ v, v < t → ¬FitsAt { a with bytes := bytes₁ } (a.blocksFor l.size) l.align v) ∧
        Marked { a with bytes := bytes₁ } bytes₂ t x.count true ∧
        (Arena.relocate (x.addr a) l).run a =
          .ok (a.blockOffset (Int64.ofNat t), a.blocksFor l.size * a.blockSize)
            { a with bytes := bytes₂ }) ∨
      ((∀ v, ¬FitsAt { a with bytes := bytes₁ } (a.blocksFor l.size) l.align v) ∧
        (Arena.relocate (x.addr a) l).run a = .error (.noFreeRunToRelocate (a.blocksFor l.size) l) a))
  /-- A run whose first block is aligned as `l` asks always moves, and not upward. -/
  relocate_aligned : a.blockAligned (Int64.ofNat x.start) l.align = true →
    ∃ (t : Nat) (bytes : ByteArray), t ≤ x.start ∧
      (Arena.relocate (x.addr a) l).run a =
        .ok (a.blockOffset (Int64.ofNat t), a.blocksFor l.size * a.blockSize)
          { a with bytes := bytes }
  /-- Growing to no more blocks changes nothing; growing to more claims the blocks after the run
      exactly when there is room there. -/
  grow : ∀ new : Layout,
    ((a.blocksFor new.size).toInt ≤ x.count →
      (growInPlace (x.addr a) l new).run a = .ok (a.blocksFor l.size * a.blockSize, true) a) ∧
    ((x.count : Int) < (a.blocksFor new.size).toInt →
      (a.RoomAfter x.start x.count (a.blocksFor new.size).toInt →
        ∃ bytes : ByteArray,
          a.Marked bytes (x.start + x.count) ((a.blocksFor new.size).toInt - x.count) true ∧
          (growInPlace (x.addr a) l new).run a =
            .ok (a.blocksFor new.size * a.blockSize, true)
              { a with bytes := bytes,
                       usedBlocks := a.usedBlocks + (a.blocksFor new.size - a.blocksFor l.size) }) ∧
      (¬a.RoomAfter x.start x.count (a.blocksFor new.size).toInt →
        (growInPlace (x.addr a) l new).run a = .ok (0, false) a))
  /-- Shrinking to no fewer blocks changes nothing; shrinking to fewer, from a block not before
      the first, clears the run's tail. -/
  shrink : ∀ new : Layout,
    ((x.count : Int) ≤ (a.blocksFor new.size).toInt →
      (shrinkInPlace (x.addr a) l new).run a = .ok (a.blocksFor l.size * a.blockSize) a) ∧
    ((a.blocksFor new.size).toInt < x.count → 0 ≤ x.start + (a.blocksFor new.size).toInt →
      ∃ bytes : ByteArray,
        a.Marked bytes (x.start + (a.blocksFor new.size).toInt)
          (x.count - (a.blocksFor new.size).toInt) false ∧
        (shrinkInPlace (x.addr a) l new).run a =
          .ok (a.blocksFor new.size * a.blockSize)
            { a with bytes := bytes,
                     usedBlocks := a.usedBlocks - (a.blocksFor l.size - a.blocksFor new.size) })

end Arena

namespace Tracks

variable {a : Arena} {live : List Extent} (ht : Tracks a live) {x : Extent} (hx : x ∈ live)
  {l : Layout} (hl : (a.blocksFor l.size).toInt = x.count)
include ht hx hl

/-- Relocating a live run: its blocks are cleared, then the first fit of the cleared table takes
    it; with no fit, marking the cleared run used again gives back the arena as it was. -/
theorem relocate_cases :
    ∃ bytes₁ : ByteArray, a.Marked bytes₁ x.start x.count false ∧
      ((∃ (t : Nat) (bytes₂ : ByteArray),
          Arena.FitsAt { a with bytes := bytes₁ } (a.blocksFor l.size) l.align t ∧
          (∀ v, v < t → ¬Arena.FitsAt { a with bytes := bytes₁ } (a.blocksFor l.size) l.align v) ∧
          Arena.Marked { a with bytes := bytes₁ } bytes₂ t x.count true ∧
          (Arena.relocate (x.addr a) l).run a =
            .ok (a.blockOffset (Int64.ofNat t), a.blocksFor l.size * a.blockSize)
              { a with bytes := bytes₂ }) ∨
        ((∀ v, ¬Arena.FitsAt { a with bytes := bytes₁ } (a.blocksFor l.size) l.align v) ∧
          (Arena.relocate (x.addr a) l).run a =
            .error (.noFreeRunToRelocate (a.blocksFor l.size) l) a)) := by
  obtain ⟨hpos, -, hend⟩ := ht.inside x hx
  obtain ⟨bytes₁, hm₁, hcases⟩ :=
    Arena.relocate_spec ht.geometry (s := x.start) (l := l) (by omega) (by omega) (by omega)
  rw [hl] at hm₁
  refine ⟨bytes₁, hm₁, ?_⟩
  rcases hcases with ⟨bytes₂, hnone, hm₂, hrun⟩ | ⟨t, bytes₂, hfit, hmin, hm₂, hrun⟩
  · -- every block of the run was used, so marking it again restores the table
    rw [hl] at hm₂
    have hback : bytes₂ = a.bytes := Arena.Marked.restores hm₁ hm₂ fun b h1 h2 =>
      ht.usedBit_of_covers hx ⟨by omega, by omega⟩
    rw [hback] at hrun
    exact .inr ⟨hnone, hrun⟩
  · rw [hl] at hm₂
    exact .inl ⟨t, bytes₂, hfit, hmin, hm₂, hrun⟩

/-- A live run whose first block is aligned as its layout asks is a fit for itself once its
    blocks are cleared: relocating it always succeeds, at a block no higher. -/
theorem relocate_of_aligned (hal : a.blockAligned (Int64.ofNat x.start) l.align = true) :
    ∃ (t : Nat) (bytes : ByteArray), t ≤ x.start ∧
      (Arena.relocate (x.addr a) l).run a =
        .ok (a.blockOffset (Int64.ofNat t), a.blocksFor l.size * a.blockSize)
          { a with bytes := bytes } := by
  obtain ⟨hpos, -, hend⟩ := ht.inside x hx
  obtain ⟨bytes₁, hm₁, hcases⟩ := ht.relocate_cases hx hl
  have hself : Arena.FitsAt { a with bytes := bytes₁ } (a.blocksFor l.size) l.align x.start := by
    refine ⟨by rw [hl]; exact hend, hal, fun b h1 h2 => ?_⟩
    rw [hm₁.usedBit_eq b, if_pos ⟨by omega, by omega⟩]
  rcases hcases with ⟨t, bytes₂, -, hmin, -, hrun⟩ | ⟨hnone, -⟩
  · refine ⟨t, bytes₂, ?_, hrun⟩
    by_contra hlt
    exact hmin x.start (by omega) hself
  · exact absurd hself (hnone x.start)

/-- Growing a live run in place: to no more blocks at once; to more, exactly when there is room
    after it. -/
theorem growInPlace_cases (new : Layout) :
    ((a.blocksFor new.size).toInt ≤ x.count →
      (Arena.growInPlace (x.addr a) l new).run a =
        .ok (a.blocksFor l.size * a.blockSize, true) a) ∧
    ((x.count : Int) < (a.blocksFor new.size).toInt →
      (a.RoomAfter x.start x.count (a.blocksFor new.size).toInt →
        ∃ bytes : ByteArray,
          a.Marked bytes (x.start + x.count) ((a.blocksFor new.size).toInt - x.count) true ∧
          (Arena.growInPlace (x.addr a) l new).run a =
            .ok (a.blocksFor new.size * a.blockSize, true)
              { a with bytes := bytes,
                       usedBlocks := a.usedBlocks + (a.blocksFor new.size - a.blocksFor l.size) }) ∧
      (¬a.RoomAfter x.start x.count (a.blocksFor new.size).toInt →
        (Arena.growInPlace (x.addr a) l new).run a = .ok (0, false) a)) := by
  obtain ⟨hpos, -, hend⟩ := ht.inside x hx
  refine ⟨fun hle => Arena.growInPlace_of_le (Int64.le_iff_toInt_le.2 (by omega)), fun hlt => ?_⟩
  rw [← hl] at hlt ⊢
  rcases @Arena.growInPlace_room _ ht.geometry x.start l new ht.blockCount_room
    (by omega) (by omega) (by omega) hlt with ⟨hroom, hgrown⟩ | ⟨hnone, hrun⟩
  · exact ⟨fun _ => hgrown, fun hno => absurd hroom hno⟩
  · exact ⟨fun hyes => absurd hyes hnone, fun _ => hrun⟩

/-- Shrinking a live run in place: to no fewer blocks changes nothing; to fewer, from a block
    not before the first, clears its tail. -/
theorem shrinkInPlace_cases (new : Layout) :
    ((x.count : Int) ≤ (a.blocksFor new.size).toInt →
      (Arena.shrinkInPlace (x.addr a) l new).run a = .ok (a.blocksFor l.size * a.blockSize) a) ∧
    ((a.blocksFor new.size).toInt < x.count → 0 ≤ x.start + (a.blocksFor new.size).toInt →
      ∃ bytes : ByteArray,
        a.Marked bytes (x.start + (a.blocksFor new.size).toInt)
          (x.count - (a.blocksFor new.size).toInt) false ∧
        (Arena.shrinkInPlace (x.addr a) l new).run a =
          .ok (a.blocksFor new.size * a.blockSize)
            { a with bytes := bytes,
                     usedBlocks := a.usedBlocks - (a.blocksFor l.size - a.blocksFor new.size) }) := by
  obtain ⟨hpos, -, hend⟩ := ht.inside x hx
  refine ⟨fun hle => Arena.shrinkInPlace_of_le (Int64.le_iff_toInt_le.2 (by omega)),
    fun hlt hstart => ?_⟩
  rw [← hl] at hlt ⊢
  exact @Arena.shrinkInPlace_clears _ ht.geometry x.start l new (by omega) (by omega) hlt hstart

end Tracks

/-- The requests that name a live run do what `Arena.RunSpec` says, on every arena that tracks
    its live runs: relocating takes the first fit of the table with the run cleared, or is refused
    with the arena bit for bit as it was, and always succeeds, no higher, for a run whose first
    block is aligned; growing in place to more blocks succeeds exactly when there is room after
    the run, and changes nothing otherwise; shrinking in place clears the run's tail. -/
theorem tracked_run_requests_meet_spec {a : Arena} {live : List Extent} (ht : Tracks a live)
    {x : Extent} (hx : x ∈ live) {l : Layout} (hl : (a.blocksFor l.size).toInt = x.count) :
    a.RunSpec x l where
  relocate := ht.relocate_cases hx hl
  relocate_aligned := ht.relocate_of_aligned hx hl
  grow := ht.growInPlace_cases hx hl
  shrink := ht.shrinkInPlace_cases hx hl

set_option maxRecDepth 20000 in
/-- A new arena of eight blocks of eight bytes, after one request for 16 bytes: the run of that
    request, blocks `0` and `1`, is live, and the requests that name it meet their spec. -/
theorem first_run_requests_meet_spec :
    ∃ a : Arena, Arena.create true 72 8 8 8 = .ok a ∧
      Tracks (Call.runAll [.alloc ⟨16, 8⟩] (a, [])).1 (Call.runAll [.alloc ⟨16, 8⟩] (a, [])).2 ∧
      (⟨0, 2⟩ : Extent) ∈ (Call.runAll [.alloc ⟨16, 8⟩] (a, [])).2 ∧
      ((Call.runAll [.alloc ⟨16, 8⟩] (a, [])).1.blocksFor 16).toInt = 2 ∧
      (Call.runAll [.alloc ⟨16, 8⟩] (a, [])).1.RunSpec ⟨0, 2⟩ ⟨16, 8⟩ := by
  obtain ⟨a, hcreate⟩ : ∃ a, Arena.create true 72 8 8 8 = .ok a := ⟨_, rfl⟩
  have ht := Tracks.runAll [.alloc ⟨16, 8⟩] (a, []) (Tracks.of_create hcreate (by decide) (by decide))
    (by cases hcreate; simp only [Call.Obeyed, Call.Allowed, Arena.Sized]; decide)
  have hx : (⟨0, 2⟩ : Extent) ∈ (Call.runAll [.alloc ⟨16, 8⟩] (a, [])).2 := by
    cases hcreate
    cbv
    exact List.Mem.head _
  have hl : ((Call.runAll [.alloc ⟨16, 8⟩] (a, [])).1.blocksFor 16).toInt = 2 := by
    cases hcreate
    cbv
  exact ⟨a, hcreate, ht, hx, hl, tracked_run_requests_meet_spec ht hx hl⟩

set_option maxRecDepth 20000 in
/-- Shrinking the one-block run at block `0` to a layout of size `-200` asks for `-2` blocks of 64
    bytes, fewer than the run has; the table index of block `-2` is negative, so the request
    faults instead of clearing blocks `[-2, 1)` and answering `-128`. -/
theorem shrink_below_first_block_faults :
    ∃ a : Arena, Arena.create true 1088 8 64 16 = .ok a ∧
      (⟨0, 1⟩ : Extent) ∈ (Call.runAll [.alloc ⟨64, 1⟩] (a, [])).2 ∧
      ((Call.runAll [.alloc ⟨64, 1⟩] (a, [])).1.blocksFor (-200)).toInt = -2 ∧
      (Arena.shrinkInPlace 64 ⟨64, 1⟩ ⟨-200, 1⟩).run (Call.runAll [.alloc ⟨64, 1⟩] (a, [])).1 =
        .error (.indexOutOfRange (-1) 64) (Call.runAll [.alloc ⟨64, 1⟩] (a, [])).1 := by
  refine ⟨_, rfl, ?_, ?_, ?_⟩
  · cbv
    exact List.Mem.head _
  · cbv
  · cbv

end BlockArena
