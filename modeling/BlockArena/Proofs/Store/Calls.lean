import Mathlib.Algebra.BigOperators.Ring.Finset
import BlockArena.Proofs.Store.Operations

/-! # A block storage along a client's calls

A store built by `BlockStore.create` starts well formed, and each call a client makes while
keeping its promises keeps it so (`BlockStore.WellFormed.runAll`). The arena's statistics then
describe the store: one allocation per live handle, and the bytes of the used blocks are the
sizes of the live entries (`BlockStore.wellFormed_after_calls`).
-/

set_option autoImplicit false

namespace BlockArena

namespace BlockStore

/-! ## The statistics -/

theorem WellFormed.allocationCount_eq {s : BlockStore} (hw : s.WellFormed) :
    s.arena.allocationCount.toInt = s.count := by
  rw [hw.tracks.allocationCount_eq]
  simp [liveRuns, count]

theorem WellFormed.allocationBytes_eq {s : BlockStore} (hw : s.WellFormed) :
    (s.arena.usedBlocks * s.arena.blockSize).toInt = (s.entries.map fun he => he.2.size.toInt).sum := by
  have g := hw.geometry
  have hused := hw.tracks.usedBlocks_eq
  have hle := hw.tracks.sum_le
  -- the used blocks are the blocks of the live runs, no more than the arena has
  rw [g.blocks_toInt (by rw [hused]; exact Int.natCast_nonneg _) (by rw [hused]; exact hle), hused,
    Nat.cast_list_sum, ← List.sum_map_mul_right, liveRuns, List.map_map, List.map_map]
  refine congrArg List.sum (List.map_congr_left fun he hm => ?_)
  have hp := hw.placed he hm
  have hcount := hw.count_eq hm
  simp only [Function.comp_apply]
  rw [hcount, hp.size_eq]

/-! ## A client's calls -/

end BlockStore

/-- A call a client makes on a block storage: one of its storage operations. -/
inductive StoreCall where
  | allocate (l : Layout)
  | allocateZeroed (l : Layout)
  | deallocate (h : UInt64) (l : Layout)
  | resize (form : ResizeForm) (h : UInt64) (old new : Layout)
  | compact

namespace StoreCall

/-- The store a call leaves, whether it answers or fails. -/
def run : StoreCall → BlockStore → BlockStore
  | allocate l => Act.leaves (BlockStore.allocate l)
  | allocateZeroed l => Act.leaves (Storage.allocateZeroed l : Act BlockStore (UInt64 × Int64))
  | deallocate h l => Act.leaves (BlockStore.deallocate h l)
  | resize form h old new =>
    Act.leaves (Storage.resizeWith form h old new : Act BlockStore (UInt64 × Int64))
  | compact => Act.leaves BlockStore.compact

/-- A layout a caller may pass: it passes the layout check, and its size rounds up to whole
    blocks without overflow. -/
def Valid (s : BlockStore) (l : Layout) : Prop := l.check = .ok () ∧ s.arena.Sized l

/-- What the client promises for a call: every layout it passes is valid, every handle it
    passes is live, and a resize keeps a region that fits the entry's size and the new layout. -/
def Allowed : StoreCall → BlockStore → Prop
  | allocate l, s => Valid s l
  | allocateZeroed l, s => Valid s l
  | deallocate h l, s => (∃ e, s.entries.lookup h = some e) ∧ Valid s l
  | resize form h old new, s => ∃ e, s.entries.lookup h = some e ∧ Valid s old ∧ Valid s new ∧
    (form.kept old new).Within e.size.toInt new.size.toInt
  | compact, _ => True

/-- Run the calls in order, each on the store the one before leaves. -/
def runAll (cs : List StoreCall) (s : BlockStore) : BlockStore :=
  cs.foldl (fun s c => c.run s) s

@[simp] theorem runAll_nil (s : BlockStore) : runAll [] s = s := rfl

@[simp] theorem runAll_cons (c : StoreCall) (cs : List StoreCall) (s : BlockStore) :
    runAll (c :: cs) s = runAll cs (c.run s) := rfl

/-- Every call keeps the client's promise in the store the calls before it leave. -/
def Obeyed : List StoreCall → BlockStore → Prop
  | [], _ => True
  | c :: cs, s => c.Allowed s ∧ Obeyed cs (c.run s)

end StoreCall

theorem Parent.pinned_servesAtMost (refuses givesNoBuffer : Bool) :
    (Parent.pinned refuses givesNoBuffer).ServesAtMost Arena.heapLimit := by
  intro l hserve
  unfold Parent.pinned at hserve
  dsimp only at hserve
  split_ifs at hserve with h₁ h₂ h₃
  · cases hserve
  · have hle := Int64.le_iff_toInt_le.1 (Int64.not_lt.1 h₃)
    have hlim : Parent.pinnedLimit.toInt ≤ Arena.heapLimit.toInt := by decide
    omega

namespace BlockStore

/-- One call that keeps the client's promise, while handle numbers are left, keeps a store well
    formed and takes at most one handle number. -/
theorem WellFormed.step {s : BlockStore} (hw : s.WellFormed) (hroom : s.nextHandle.toNat + 1 < 2 ^ 64)
    {c : StoreCall} (hc : c.Allowed s) : Follows s (c.run s) := by
  cases c with
  | allocate l =>
    rcases hw.allocate_step hc.2 hroom with ⟨f, -, hf⟩ | ⟨e, s', hrun, hw', -, hnext⟩
    · simp only [StoreCall.run, Act.leaves_of_error hf]
      exact hw.follows_self
    · simp only [StoreCall.run, Act.leaves_of_ok hrun]
      exact ⟨hw', by omega, by omega⟩
  | allocateZeroed l => exact hw.allocateZeroed_step hc.2 hroom
  | deallocate h l => exact hw.deallocate_step h l
  | resize form h old new =>
    obtain ⟨e, hl, hold, hnew, hr⟩ := hc
    exact hw.resizeWith_step hl hold.2 hnew.2 hr
  | compact => exact hw.compact_step

/-- Calls that keep the client's promises, no more than the handle numbers left, keep a store
    well formed; each takes at most one handle number. -/
theorem WellFormed.runAll : ∀ (cs : List StoreCall) {s : BlockStore}, s.WellFormed →
    s.nextHandle.toNat + cs.length < 2 ^ 64 → StoreCall.Obeyed cs s →
    (StoreCall.runAll cs s).WellFormed ∧
      s.nextHandle.toNat ≤ (StoreCall.runAll cs s).nextHandle.toNat ∧
      (StoreCall.runAll cs s).nextHandle.toNat ≤ s.nextHandle.toNat + cs.length
  | [], _, hw, _, _ => ⟨hw, le_rfl, le_rfl⟩
  | c :: cs, s, hw, hroom, ⟨hc, hcs⟩ => by
    rw [List.length_cons] at hroom
    have hf := hw.step (by omega) hc
    have hge₁ := hf.next_ge
    have hle₁ := hf.next_le
    -- the rest of the calls start from the store the first one leaves
    obtain ⟨hw', hge, hle⟩ := runAll cs hf.wellFormed (by omega) hcs
    rw [StoreCall.runAll_cons, List.length_cons]
    exact ⟨hw', by omega, by omega⟩

/-- What a successful `create` did, with the defaults put in for a zero block size or count:
    the arena's layout is that of its needed size, the parent served that layout with a buffer,
    and the arena was built over it; the store holds that arena and nothing else yet. -/
theorem create_arena {parent : Parent} {bs n : Int64} {flags : Int32} {s : BlockStore}
    (hcreate : BlockStore.create parent bs n flags = .ok s) :
    ∃ l a, Layout.make (Arena.neededBytesFor (if bs = 0 then defaultBlockSize else bs)
        (if n = 0 then defaultBlockCount else n))
        (max (if bs = 0 then defaultBlockSize else bs) 8).toUInt64 = .ok l ∧
      parent.serve l = .ok true ∧
      Arena.create true l.size l.align (if bs = 0 then defaultBlockSize else bs)
        (if n = 0 then defaultBlockCount else n) = .ok a ∧
      s = { arena := a, flags := flags } := by
  unfold BlockStore.create at hcreate
  generalize (if bs = 0 then defaultBlockSize else bs) = b at hcreate ⊢
  generalize (if n = 0 then defaultBlockCount else n) = c at hcreate ⊢
  simp only at hcreate
  -- past the argument checks, the parent serves the arena's layout and the arena is built
  split at hcreate
  · cases hcreate
  split at hcreate
  · cases hcreate
  split at hcreate
  · cases hcreate
  rename_i l hl
  split at hcreate
  · cases hcreate
  rename_i present hserve
  split at hcreate
  · cases hcreate
  rename_i a ha
  cases hcreate
  cases present with
  | false => simp [Arena.create] at ha
  | true => exact ⟨l, a, hl, hserve, ha, rfl⟩

/-- A store built by `create` is well formed, with no handle given out yet, when its arena's
    buffer holds what the arena needs and the parent serves no more than the heap. -/
theorem WellFormed.of_create {parent : Parent} {bs n : Int64} {flags : Int32} {s : BlockStore}
    (hcreate : BlockStore.create parent bs n flags = .ok s)
    (hneed : Arena.exactNeed s.arena.blockSize.toInt s.arena.blockCount.toInt ≤
      s.arena.bufferSize.toInt)
    (hlimit : parent.ServesAtMost Arena.heapLimit) :
    s.WellFormed ∧ s.nextHandle = 1 := by
  obtain ⟨l, a, -, hserve, ha, rfl⟩ := create_arena hcreate
  have hsize := hlimit l hserve
  obtain ⟨-, -, -, -, rfl⟩ := Arena.create_inv ha
  have ht := Tracks.of_create ha hneed (by omega)
  refine ⟨⟨ht, ?_, ?_, ?_, ?_, List.nodup_nil⟩, rfl⟩ <;> simp

/-- From a store built by `create`, along every sequence of calls that keeps the client's
    promises, the store stays well formed: the runs of its entries lie in the arena, apart, and
    are exactly what the occupancy table and the counters track; every entry has the blocks its
    layout needs at an address aligned as its layout asks; every handle is positive, below the
    next handle and held by one entry. The statistics then count the live handles and the sum
    of their sizes. The arena's buffer holds the bytes the arena needs, the parent serves no
    more than the heap, and there are fewer calls than handle numbers. -/
theorem wellFormed_after_calls {parent : Parent} {bs n : Int64} {flags : Int32} {s : BlockStore}
    (hcreate : BlockStore.create parent bs n flags = .ok s)
    (hneed : Arena.exactNeed s.arena.blockSize.toInt s.arena.blockCount.toInt ≤
      s.arena.bufferSize.toInt)
    (hlimit : parent.ServesAtMost Arena.heapLimit)
    (cs : List StoreCall) (hroom : cs.length < 2 ^ 64 - 1) (hcs : StoreCall.Obeyed cs s) :
    (StoreCall.runAll cs s).WellFormed ∧
      (StoreCall.runAll cs s).arena.stats.allocationCount.toInt = (StoreCall.runAll cs s).count ∧
      (StoreCall.runAll cs s).arena.stats.allocationBytes.toInt =
        ((StoreCall.runAll cs s).entries.map fun he => he.2.size.toInt).sum := by
  obtain ⟨hw, hnext⟩ := WellFormed.of_create hcreate hneed hlimit
  have hone : s.nextHandle.toNat = 1 := by rw [hnext]; rfl
  obtain ⟨hw', -, -⟩ := hw.runAll cs (by omega) hcs
  exact ⟨hw', hw'.allocationCount_eq, hw'.allocationBytes_eq⟩

/-- A store of eight blocks of eight bytes, after one request for 16 bytes. -/
theorem wellFormed_after_calls_allocate :
    ∃ s, BlockStore.create (.pinned false false) 8 8 0 = .ok s ∧
      (StoreCall.runAll [.allocate ⟨16, 8⟩] s).WellFormed ∧
      (StoreCall.runAll [.allocate ⟨16, 8⟩] s).arena.stats.allocationCount.toInt =
        (StoreCall.runAll [.allocate ⟨16, 8⟩] s).count ∧
      (StoreCall.runAll [.allocate ⟨16, 8⟩] s).arena.stats.allocationBytes.toInt =
        ((StoreCall.runAll [.allocate ⟨16, 8⟩] s).entries.map fun he => he.2.size.toInt).sum :=
  let s : BlockStore :=
    { arena := { blockSize := 8, blockCount := 8, managementBlocks := 1, bufferSize := 72,
                 bufferAlign := 8, bytes := Buffer.zeros 72, tableLength := 8 },
      flags := 0 }
  ⟨s, rfl, wellFormed_after_calls (rfl : BlockStore.create (.pinned false false) 8 8 0 = .ok s)
    (by decide) (Parent.pinned_servesAtMost false false) _ (by decide)
    ⟨⟨rfl, by simp only [Arena.Sized]; decide⟩, trivial⟩⟩

end BlockStore

end BlockArena
