import BlockArena.Proofs.Release

/-! # A block storage hands its arena back once

A block storage refuses a release while handles are live, and otherwise releases its arena
(`BlockStore.release_of_live`, `BlockStore.release_of_idle`). Every other call keeps the arena's
buffer, its layout and whether it went back (`StoreCall.run_sameBuffer`), whatever it answers.

Over a storage's life, a sequence of its calls, writes into its memory and releases
(`LifeCall`), the parent that served the arena's buffer gets it back once, of the layout it
served, exactly when the arena ends released (`LifeCall.runAll_from_held`). A storage that is not
built hands back the one buffer the parent served, or nothing when the parent was never asked or
refused (`BlockStore.create_error`). `buffers_go_back_once` collects the whole discipline, for
bare arenas and for storages.
-/

set_option autoImplicit false

namespace BlockArena

/-! ## Calls that keep the buffer -/

namespace Act

variable {σ α : Type} {R : σ → σ → Prop}

theorem clear_stays [Std.Refl R] [IsTrans σ R] (memory : σ → Space)
    (setMemory : σ → Space → σ) (hset : ∀ s m, R s (setMemory s m)) (p : Addr) (lo hi : Int64) :
    Stays R (do
      let m ← Act.ofExcept (Memory.clear (memory (← get)) p lo hi)
      modify fun s => setMemory s m : Act σ Unit) :=
  (Stays.of_inert .get).bind fun _ => (Stays.of_inert (.ofExcept _)).bind fun m =>
    Stays.modify fun s => hset s m

theorem resizeBy_stays [Std.Refl R] [IsTrans σ R] {H : Type} {resolve : H → Act σ Addr}
    {memory : σ → Space} {setMemory : σ → Space → σ}
    {resize : Bool → H → Layout → Layout → Region → Act σ (H × Int64)}
    (hresize : ∀ grow h old new r, Stays R (resize grow h old new r))
    (hresolve : ∀ h, Stays R (resolve h)) (hset : ∀ s m, R s (setMemory s m))
    (form : ResizeForm) (h : H) (old new : Layout) :
    Stays R (BlockArena.resizeBy resolve memory setMemory resize form h old new) := by
  unfold BlockArena.resizeBy
  refine (hresize _ _ _ _ _).bind fun ⟨h', n⟩ => ?_
  dsimp only
  split
  · refine (hresolve h').bind fun p => ?_
    split
    · exact (clear_stays _ _ hset _ _ _).bind fun _ =>
        (clear_stays _ _ hset _ _ _).bind fun _ => .of_inert (.pure _)
    · exact (clear_stays _ _ hset _ _ _).bind fun _ => .of_inert (.pure _)
  · exact .of_inert (.pure _)

end Act

namespace BlockStore

/-- The store's arena keeps its buffer and whether it went back. -/
abbrev SameBuffer : BlockStore → BlockStore → Prop := InvImage Arena.SameBuffer arena

instance : Std.Refl SameBuffer := ⟨fun s => Std.Refl.refl s.arena⟩

instance : IsTrans BlockStore SameBuffer :=
  ⟨fun _ _ _ h₁ h₂ => trans_of Arena.SameBuffer h₁ h₂⟩

theorem sameBuffer_of_arena_eq {s s' : BlockStore} (h : s'.arena = s.arena) : SameBuffer s s' := by
  show Arena.SameBuffer s.arena s'.arena
  rw [h]
  exact Std.Refl.refl _

theorem sameBuffer_withSpace (s : BlockStore) (m : Space) : SameBuffer s (s.withSpace m) :=
  ⟨rfl, rfl⟩

theorem onArena_sameBuffer {α : Type} {x : Act Arena α} (hx : Act.Stays Arena.SameBuffer x) :
    Act.Stays SameBuffer (onArena x) := fun s => by
  have h := hx s.arena
  unfold Act.leaves at h ⊢
  rw [onArena, Act.run_focus]
  cases hr : x.run s.arena with
  | ok a t => rw [hr] at h; exact h
  | error f t => rw [hr] at h; exact h

theorem modify_sameBuffer {f : BlockStore → BlockStore} (hf : ∀ s, (f s).arena = s.arena) :
    Act.Stays SameBuffer (modify f : Act BlockStore PUnit) :=
  .modify fun s => sameBuffer_of_arena_eq (hf s)

theorem moveRegion_sameBuffer (dst src : Int64) (r : Region) :
    Act.Stays SameBuffer (moveRegion dst src r) := fun s => by
  unfold moveRegion
  rw [Act.leaves_bind_ok (Act.run_get s)]
  cases hm : Memory.move s.space (.offset dst.toInt) r.dst.toInt (.offset src.toInt) r.src.toInt
      r.size with
  | error f =>
    rw [Act.leaves_bind_error (Act.run_ofExcept_error f s)]
    exact Std.Refl.refl s
  | ok m =>
    rw [Act.leaves_bind_ok (Act.run_ofExcept_ok m s), Act.leaves_of_ok (Act.run_set _ _)]
    exact sameBuffer_withSpace s m

theorem lookup_sameBuffer (h : UInt64) : Act.Stays SameBuffer (lookup h) :=
  .of_inert (lookup_inert h)

theorem put_sameBuffer (h : UInt64) (e : BlockEntry) : Act.Stays SameBuffer (put h e) :=
  modify_sameBuffer fun _ => rfl

theorem bump_sameBuffer : Act.Stays SameBuffer bump :=
  modify_sameBuffer fun _ => rfl

theorem allocate_sameBuffer (l : Layout) : Act.Stays SameBuffer (allocate l) := by
  unfold allocate
  refine (onArena_sameBuffer (Arena.alloc_within Arena.sameBuffer_tableWrites l)).bind
    fun ⟨off, size⟩ => (Act.Stays.of_inert .get).bind fun st => ?_
  refine Act.Stays.bind (modify_sameBuffer fun _ => rfl) fun _ => ?_
  exact (put_sameBuffer _ _).bind fun _ => bump_sameBuffer.bind fun _ => .of_inert (.pure _)

theorem deallocate_sameBuffer (h : UInt64) (l : Layout) :
    Act.Stays SameBuffer (deallocate h l) := by
  unfold deallocate
  refine (lookup_sameBuffer h).bind fun e =>
    (onArena_sameBuffer (Arena.dealloc_within Arena.sameBuffer_tableWrites _ _)).bind fun _ => ?_
  exact Act.Stays.bind (modify_sameBuffer fun _ => rfl) fun _ => bump_sameBuffer

theorem relocating_sameBuffer (h : UInt64) (e : BlockEntry) (new : Layout) (r : Region) :
    Act.Stays SameBuffer (do
      let (off, n) ← onArena (Arena.alloc new)
      moveRegion off e.offset r
      onArena (Arena.dealloc e.offset e.layout)
      put h ⟨off, new, n⟩
      bump
      pure (h, n) : Act BlockStore (UInt64 × Int64)) :=
  (onArena_sameBuffer (Arena.alloc_within Arena.sameBuffer_tableWrites new)).bind fun _ =>
    (moveRegion_sameBuffer _ _ _).bind fun _ =>
    (onArena_sameBuffer (Arena.dealloc_within Arena.sameBuffer_tableWrites _ _)).bind fun _ =>
    (put_sameBuffer _ _).bind fun _ => bump_sameBuffer.bind fun _ => .of_inert (.pure _)

theorem resize_sameBuffer (grow : Bool) (h : UInt64) (old new : Layout) (r : Region) :
    Act.Stays SameBuffer (resize grow h old new r) := by
  unfold resize
  refine (lookup_sameBuffer h).bind fun e => (Act.Stays.of_inert .get).bind fun st => ?_
  dsimp only
  simp only [pure_bind]
  have placed : ∀ n : Int64, Act.Stays SameBuffer (do
      put h ⟨e.offset, new.withSize n, n⟩
      bump
      pure (h, n) : Act BlockStore (UInt64 × Int64)) := fun _ =>
    (put_sameBuffer _ _).bind fun _ => bump_sameBuffer.bind fun _ => .of_inert (.pure _)
  split
  · split
    · refine (onArena_sameBuffer
        (Arena.growInPlace_within Arena.sameBuffer_tableWrites _ _ _)).bind fun ⟨n, ok⟩ => ?_
      cases ok with
      | false => exact relocating_sameBuffer h e new r
      | true => exact (moveRegion_sameBuffer _ _ _).bind fun _ => placed n
    · exact (moveRegion_sameBuffer _ _ _).bind fun _ => (onArena_sameBuffer
        (Arena.shrinkInPlace_within Arena.sameBuffer_tableWrites _ _ _)).bind placed
  · exact relocating_sameBuffer h e new r

theorem resizeWith_sameBuffer (form : ResizeForm) (h : UInt64) (old new : Layout) :
    Act.Stays SameBuffer (Storage.resizeWith form h old new : Act BlockStore (UInt64 × Int64)) :=
  Act.resizeBy_stays resize_sameBuffer (fun h => .of_inert (resolve_inert h)) sameBuffer_withSpace
    form h old new

theorem allocateZeroed_sameBuffer (l : Layout) :
    Act.Stays SameBuffer (Storage.allocateZeroed l : Act BlockStore (UInt64 × Int64)) :=
  (allocate_sameBuffer l).bind fun ⟨h, n⟩ => (Act.Stays.of_inert (resolve_inert h)).bind fun p =>
    (Act.clear_stays space withSpace sameBuffer_withSpace p 0 n).bind fun _ => .of_inert (.pure _)

theorem compactOne_sameBuffer (c : Compaction) (he : UInt64 × BlockEntry) :
    Act.Stays SameBuffer (compactOne c he) := fun s => by
  obtain ⟨h, e⟩ := he
  have hrel := Arena.relocate_within Arena.sameBuffer_tableWrites e.offset e.layout s.arena
  -- every outcome keeps the arena the relocation leaves, with its bytes moved at most
  rcases compactOne_cases c h e s with hok | ⟨f, a, hr, -, herr⟩ |
      ⟨off, size, a, hr, -, ⟨f, -, herr⟩ | ⟨m, -, hok⟩⟩
  · rw [Act.leaves_of_ok hok]
    exact hrel
  · rw [Act.leaves_of_error herr]
    rw [Act.leaves_of_error hr] at hrel
    exact hrel
  · rw [Act.leaves_of_error herr]
    rw [Act.leaves_of_ok hr] at hrel
    exact hrel
  · rw [Act.leaves_of_ok hok]
    rw [Act.leaves_of_ok hr] at hrel
    exact trans_of Arena.SameBuffer hrel (sameBuffer_withSpace { s with arena := a } _)

theorem foldCompact_sameBuffer : ∀ (todo : List (UInt64 × BlockEntry)) (c : Compaction),
    Act.Stays SameBuffer (todo.foldlM compactOne c)
  | [], _ => .of_inert (.pure _)
  | he :: todo, c => by
    rw [List.foldlM_cons]
    exact (compactOne_sameBuffer c he).bind fun c' => foldCompact_sameBuffer todo c'

theorem compact_sameBuffer : Act.Stays SameBuffer compact := by
  unfold compact
  exact (Act.Stays.of_inert .get).bind fun s => (foldCompact_sameBuffer _ _).bind fun _ =>
    bump_sameBuffer.bind fun _ => .of_inert (.pure _)

/-! ## Release -/

/-- While handles are live, a release is refused, names how many, and changes nothing. -/
theorem release_of_live {s : BlockStore} (h : 0 < s.count) :
    release.run s = .error (.liveHandles (Int64.ofNat s.count)) s := by
  rw [release, Act.run_bind_ok (Act.run_get s), if_pos h]
  rfl

/-- With no live handle, a release is the release of the arena. -/
theorem release_of_idle {s : BlockStore} (h : s.count = 0) :
    release.run s = (onArena Arena.release).run s := by
  rw [release, Act.run_bind_ok (Act.run_get s), if_neg (by omega)]

theorem onArena_run_error {α : Type} {act : Act Arena α} {s s' : BlockStore} {f : Fault}
    (h : (onArena act).run s = .error f s') :
    ∃ t, act.run s.arena = .error f t ∧ s' = { s with arena := t } := by
  rw [onArena, Act.run_focus] at h
  cases hact : act.run s.arena with
  | ok a t =>
    rw [hact] at h
    cases h
  | error f' t =>
    rw [hact] at h
    cases h
    exact ⟨t, rfl, rfl⟩

/-- A release that answers found no live handle and an arena not yet released with no live
    allocation, and leaves the arena released with no table. -/
theorem release_run_ok {s s' : BlockStore} {u : Unit} (h : release.run s = .ok u s') :
    s.count = 0 ∧ s.arena.released = false ∧
      s' = { s with arena := { s.arena with released := true, tableLength := 0 } } := by
  by_cases hc : 0 < s.count
  · rw [release_of_live hc] at h
    cases h
  · rw [release_of_idle (by omega)] at h
    obtain ⟨t, ht, rfl⟩ := onArena_run_ok h
    obtain ⟨hr, -, rfl⟩ := Arena.release_run_ok ht
    exact ⟨by omega, hr, rfl⟩

theorem release_run_error {s s' : BlockStore} {f : Fault} (h : release.run s = .error f s') :
    s' = s := by
  by_cases hc : 0 < s.count
  · rw [release_of_live hc] at h
    cases h
    rfl
  · rw [release_of_idle (by omega)] at h
    obtain ⟨t, ht, rfl⟩ := onArena_run_error h
    rw [Arena.release_run_error ht]

end BlockStore

/-- Every call a client makes keeps the arena's buffer, and whether it went back. -/
theorem StoreCall.run_sameBuffer (c : StoreCall) (s : BlockStore) :
    BlockStore.SameBuffer s (c.run s) := by
  cases c with
  | allocate l => exact BlockStore.allocate_sameBuffer l s
  | allocateZeroed l => exact BlockStore.allocateZeroed_sameBuffer l s
  | deallocate h l => exact BlockStore.deallocate_sameBuffer h l s
  | resize form h old new => exact BlockStore.resizeWith_sameBuffer form h old new s
  | compact => exact BlockStore.compact_sameBuffer s

/-! ## A block storage over its life -/

/-- A call on a block storage over its life: one of its storage operations, a write into the
    memory it hands out, or the release of its arena. -/
inductive LifeCall where
  | call (c : StoreCall)
  | write (m : Space)
  | release

namespace LifeCall

/-- The store a call leaves, and the layout of the buffer that went back to the parent, if one
    did. The parent owns the arena's buffer, and gets it back exactly when a release answers. -/
def run : LifeCall → BlockStore → BlockStore × Option Layout
  | call c, s => (c.run s, none)
  | write m, s => (s.withSpace m, none)
  | release, s =>
    match BlockStore.release.run s with
    | .ok _ s' => (s', some s.arena.bufferLayout)
    | .error _ s' => (s', none)

/-- Run the calls in order: the store they leave, and the layouts of the buffers that went back
    to the parent, in order. -/
def runAll : List LifeCall → BlockStore → BlockStore × List Layout
  | [], s => (s, [])
  | c :: cs, s =>
    let r := runAll cs (c.run s).1
    (r.1, (c.run s).2.toList ++ r.2)

/-- One call hands the buffer back exactly when it releases the arena, of the layout the arena
    holds, which it keeps. -/
theorem run_accounts (c : LifeCall) (s : BlockStore) :
    (c.run s).2.toList.length + s.arena.released.toNat = (c.run s).1.arena.released.toNat ∧
      (∀ l ∈ (c.run s).2, l = s.arena.bufferLayout) ∧
      (c.run s).1.arena.bufferLayout = s.arena.bufferLayout := by
  have kept : ∀ s' : BlockStore, BlockStore.SameBuffer s s' →
      (none : Option Layout).toList.length + s.arena.released.toNat = s'.arena.released.toNat ∧
        (∀ l ∈ (none : Option Layout), l = s.arena.bufferLayout) ∧
        s'.arena.bufferLayout = s.arena.bufferLayout :=
    fun s' hs => ⟨by simp [hs.released_eq], by simp, hs.bufferLayout_eq⟩
  cases c with
  | call c => exact kept _ (c.run_sameBuffer s)
  | write m => exact kept _ (BlockStore.sameBuffer_withSpace s m)
  | release =>
    obtain ⟨u, s', hr⟩ | ⟨f, s', hr⟩ : (∃ u s', BlockStore.release.run s = .ok u s') ∨
        ∃ f s', BlockStore.release.run s = .error f s' := by
      cases BlockStore.release.run s with
      | ok u s' => exact .inl ⟨u, s', rfl⟩
      | error f s' => exact .inr ⟨f, s', rfl⟩
    · have hrun : LifeCall.release.run s = (s', some s.arena.bufferLayout) := by
        simp only [run, hr]
      obtain ⟨-, hfree, rfl⟩ := BlockStore.release_run_ok hr
      rw [hrun]
      exact ⟨by simp [hfree], by simp, rfl⟩
    · have hrun : LifeCall.release.run s = (s', none) := by
        simp only [run, hr]
      rw [hrun, BlockStore.release_run_error hr]
      exact kept s (Std.Refl.refl s)

/-- Along every run of calls, the buffers that go back to the parent are as many as the times
    the arena went from held to released, each of the layout the arena was given, which it keeps.
    -/
theorem runAll_accounts (cs : List LifeCall) : ∀ s : BlockStore,
    (runAll cs s).2.length + s.arena.released.toNat = (runAll cs s).1.arena.released.toNat ∧
      (∀ l ∈ (runAll cs s).2, l = s.arena.bufferLayout) ∧
      (runAll cs s).1.arena.bufferLayout = s.arena.bufferLayout := by
  induction cs with
  | nil => intro s; simp [runAll]
  | cons c cs ih =>
    intro s
    obtain ⟨hc, hmem, hl⟩ := run_accounts c s
    obtain ⟨hcs, hmem', hl'⟩ := ih (c.run s).1
    simp only [runAll, List.length_append]
    refine ⟨by omega, fun l hl₁ => ?_, hl'.trans hl⟩
    rcases List.mem_append.1 hl₁ with h | h
    · exact hmem l (Option.mem_toList.1 h)
    · exact (hmem' l h).trans hl

/-- From a store whose arena is held, the parent gets back the arena's buffer once, of the layout
    it was given, if the arena ends released, and nothing otherwise. -/
theorem runAll_from_held (cs : List LifeCall) {s : BlockStore} (hr : s.arena.released = false) :
    (runAll cs s).2 =
      if (runAll cs s).1.arena.released then [s.arena.bufferLayout] else [] := by
  obtain ⟨hcount, hmem, -⟩ := runAll_accounts cs s
  rw [hr, Bool.toNat_false, Nat.add_zero] at hcount
  cases hfin : (runAll cs s).1.arena.released with
  | false =>
    rw [hfin, Bool.toNat_false] at hcount
    exact List.eq_nil_of_length_eq_zero hcount
  | true =>
    rw [hfin, Bool.toNat_true] at hcount
    obtain ⟨l, hl⟩ := List.length_eq_one_iff.1 hcount
    rw [hl, hmem l (by simp [hl])]
    rfl

end LifeCall

/-! ## Creating a block storage -/

/-- The parent of a block storage has served the arena for blocks of `blockSize` bytes and
    `blockCount` blocks (zero meaning the defaults) as the layout `l`: the sizes passed their
    checks, `l` is the arena's layout, and the parent answered the request for it, with a buffer
    or without one. -/
def Parent.Served (p : Parent) (blockSize blockCount : Int64) (l : Layout) : Prop :=
  let bs := if blockSize = 0 then BlockStore.defaultBlockSize else blockSize
  let count := if blockCount = 0 then BlockStore.defaultBlockCount else blockCount
  Word.isPow2Signed bs = true ∧ ¬count < 0 ∧
    Layout.make (Arena.neededBytesFor bs count) (max bs 8).toUInt64 = .ok l ∧
    ∃ present, p.serve l = .ok present

namespace BlockStore

/-- A store that is built took the buffer of the arena's layout from its parent: the arena holds
    it, not yet released, and no handle is live. -/
theorem create_ok {p : Parent} {bs bc : Int64} {flags : Int32} {s : BlockStore}
    (h : create p bs bc flags = .ok s) :
    ∃ l, p.Served bs bc l ∧ p.serve l = .ok true ∧ s.arena.bufferLayout = l ∧
      s.arena.released = false ∧ s.count = 0 := by
  obtain ⟨l, a, hl, hserve, ha, rfl⟩ := create_arena h
  obtain ⟨hpow, hc, -, -, rfl⟩ := Arena.create_inv ha
  exact ⟨l, ⟨hpow, fun hlt => hc (Int64.le_of_lt hlt), hl, true, hserve⟩, hserve, rfl, rfl, rfl⟩

/-- A store that is not built hands back to its parent exactly the buffers the parent served:
    one when the parent answered the request for the arena, and none when the request was never
    made or refused. -/
theorem create_error {p : Parent} {bs bc : Int64} {flags : Int32} {f : Fault} {n : Nat}
    (h : create p bs bc flags = .error (f, n)) :
    (n = 1 ∧ ∃ l, p.Served bs bc l) ∨ (n = 0 ∧ ∀ l, ¬p.Served bs bc l) := by
  unfold create at h
  unfold Parent.Served
  generalize (if bs = 0 then defaultBlockSize else bs) = b at h ⊢
  generalize (if bc = 0 then defaultBlockCount else bc) = c at h ⊢
  simp only at h ⊢
  split at h
  · rename_i hpow
    cases h
    exact .inr ⟨rfl, fun l hs => by simp [hs.1] at hpow⟩
  rename_i hpow
  split at h
  · rename_i hc
    cases h
    exact .inr ⟨rfl, fun l hs => hs.2.1 hc⟩
  rename_i hc
  split at h
  · rename_i g hl
    cases h
    exact .inr ⟨rfl, fun l hs => by rw [hs.2.2.1] at hl; cases hl⟩
  rename_i l hl
  split at h
  · rename_i g hserve
    cases h
    refine .inr ⟨rfl, fun l' hs => ?_⟩
    obtain ⟨-, -, hl', present, hserve'⟩ := hs
    rw [hl] at hl'
    cases hl'
    rw [hserve] at hserve'
    cases hserve'
  rename_i present hserve
  split at h
  · cases h
    exact .inl ⟨rfl, l, by simpa using hpow, hc, hl, present, hserve⟩
  · cases h

end BlockStore

/-! ## The discipline -/

/-- How an arena's buffer goes back to the allocator it came from, for a bare arena and for a
    block storage over one. -/
structure ReleaseDiscipline : Prop where
  /-- While allocations are live, a release is refused and leaves the arena as it was. -/
  arena_live : ∀ a : Arena, 0 < a.allocationCount → ∃ f, Arena.release.run a = .error f a
  /-- With none live, the first release marks the arena released and drops its table. -/
  arena_first : ∀ a : Arena, a.released = false → a.allocationCount ≤ 0 →
    Arena.release.run a = .ok () { a with released := true, tableLength := 0 }
  /-- Every later release is refused and leaves the arena as it was. -/
  arena_again : ∀ a : Arena, a.released = true →
    Arena.release.run a = .error .alreadyReleased a
  /-- Along every run of steps on a held arena whose owner has got nothing back, one step hands
      the buffer back if the arena ends released and none otherwise; that step reports one buffer
      to an owner (none for a heap arena); the owner ends with one buffer back exactly when the
      arena is released, and the buffer keeps its layout. -/
  arena_runs : ∀ s : Session.ArenaRun, s.arena.released = false → s.parentDeallocs = 0 →
    ∀ sts, (s.steps sts).countP Session.handsBack = (s.after sts).arena.released.toNat ∧
      (∀ r ∈ s.steps sts, Session.handsBack r = true →
        r = .ok (.released (if s.composable then 0 else 1))) ∧
      (s.after sts).parentDeallocs = (s.after sts).handedBack ∧
      (s.after sts).arena.bufferLayout = s.arena.bufferLayout
  /-- While handles are live, a storage refuses a release, names how many, and changes
      nothing. -/
  store_live : ∀ s : BlockStore, 0 < s.count →
    BlockStore.release.run s = .error (.liveHandles (Int64.ofNat s.count)) s
  /-- With none live, releasing a storage releases its arena. -/
  store_idle : ∀ s : BlockStore, s.count = 0 →
    BlockStore.release.run s = (BlockStore.onArena Arena.release).run s
  /-- A storage that is built took one buffer of the arena's layout from its parent, and over
      every sequence of calls hands that buffer back once, of that layout, if its arena ends
      released, and never otherwise. -/
  store_life : ∀ p bs bc flags s, BlockStore.create p bs bc flags = .ok s →
    ∃ l, p.Served bs bc l ∧ p.serve l = .ok true ∧ ∀ cs,
      (LifeCall.runAll cs s).2 = if (LifeCall.runAll cs s).1.arena.released then [l] else []
  /-- A storage that is not built hands back to its parent the one buffer the parent served, or
      nothing when the parent was never asked or refused. -/
  store_refused : ∀ p bs bc flags f n, BlockStore.create p bs bc flags = .error (f, n) →
    (n = 1 ∧ ∃ l, p.Served bs bc l) ∨ (n = 0 ∧ ∀ l, ¬p.Served bs bc l)

theorem buffers_go_back_once : ReleaseDiscipline where
  arena_live _ := Arena.release_of_live
  arena_first _ := Arena.release_of_idle
  arena_again _ := Arena.release_of_released
  arena_runs s hr hp sts := s.run_from_held hr hp sts
  store_live _ := BlockStore.release_of_live
  store_idle _ := BlockStore.release_of_idle
  store_life p bs bc flags s h := by
    obtain ⟨l, hserved, hserve, hlayout, hheld, -⟩ := BlockStore.create_ok h
    refine ⟨l, hserved, hserve, fun cs => ?_⟩
    rw [LifeCall.runAll_from_held cs hheld, hlayout]
  store_refused _ _ _ _ _ _ := BlockStore.create_error

/-- A store over the protocol's parent that is released twice hands its buffer back once. -/
theorem store_released_twice_hands_back_once :
    ∃ s l, BlockStore.create (.pinned false false) 8 8 0 = .ok s ∧
      (LifeCall.runAll [.release, .release] s).2 = [l] := by
  obtain ⟨s, hs⟩ : ∃ s, BlockStore.create (.pinned false false) 8 8 0 = .ok s := ⟨_, rfl⟩
  obtain ⟨l, -, -, hlife⟩ := buffers_go_back_once.store_life _ _ _ _ _ hs
  refine ⟨s, l, hs, ?_⟩
  have hreleased : (LifeCall.runAll [.release, .release] s).1.arena.released = true := by
    cases hs
    rfl
  rw [hlife, if_pos hreleased]

end BlockArena
