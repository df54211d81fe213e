import BlockArena.Arena.Table

/-! # Allocating blocks

`alloc` serves a layout with the first fit: the lowest block `s` such that the `n` blocks from
`s` on lie in the arena, are all free, and start at an address aligned as the layout asks,
where `n = blocksFor size`. A request for as many blocks as the arena has, or more, is refused
before any search. On success the run's bits are set, one allocation and `n` used blocks are
counted, and the answer is the run's byte offset and its `n * blockSize` usable bytes.

`relocate` moves an allocation to the first fit that counts its own blocks as free, and puts
it back if there is none. `growInPlace` claims the blocks right after an allocation,
`shrinkInPlace` gives back its tail, and `dealloc` clears its bits. These trust the layout they
are given and check only that the address lies in the buffer (`dealloc`, `relocate`).
-/

set_option autoImplicit false

namespace BlockArena

namespace Arena

/-- The first block from `s` on where `count` free blocks start at an address aligned to
    `align`, trying starts while `start + count ≤ blockCount` (on words). -/
def firstFitFrom (a : Arena) (count : Int64) (align : UInt64) (s : Nat) :
    Except Fault (Option Int64) :=
  if _h : 9223372036854775808 ≤ s then .ok none
  else
    let start := Int64.ofNat s
    if a.blockCount < start + count then .ok none
    else if !a.blockAligned start align then firstFitFrom a count align (s + 1)
    else
      match a.runFree start count with
      | .error f => .error f
      | .ok true => .ok (some start)
      | .ok false => firstFitFrom a count align (s + 1)
termination_by 9223372036854775808 - s

/-- The lowest block that starts a free, aligned run of `count` blocks. -/
def firstFit (a : Arena) (count : Int64) (align : UInt64) : Except Fault (Option Int64) :=
  a.firstFitFrom count align 0

/-- Serve a layout from the first fit; answers the byte offset and the usable size. -/
def alloc (l : Layout) : Act Arena (Int64 × Int64) := do
  match l.check with
  | .error f => Act.fail (.invalidLayout f)
  | .ok () =>
    let a ← get
    let need := a.blocksFor l.size
    if a.blockCount ≤ need then Act.fail (.tooManyBlocks l need a.blockCount)
    else
      match ← Act.ofExcept (a.firstFit need l.align) with
      | none => Act.fail (.noFreeRun need l)
      | some start =>
        markRun start need true
        modify fun a => { a with allocationCount := a.allocationCount + 1,
                                 usedBlocks := a.usedBlocks + need }
        pure (a.blockOffset start, need * a.blockSize)

/-- Move the allocation at `off` to the first fit that counts its own blocks as free. If there
    is none, its blocks are marked used again and the request is refused. -/
def relocate (off : Int64) (l : Layout) : Act Arena (Int64 × Int64) := do
  let a ← get
  if !a.owns (.offset off.toInt) then Act.fail .relocateForeign
  else
    let block := a.blockIndex off
    let count := a.blocksFor l.size
    markRun block count false
    match ← Act.ofExcept ((← get).firstFit count l.align) with
    | none =>
      markRun block count true
      Act.fail (.noFreeRunToRelocate count l)
    | some start =>
      markRun start count true
      pure (a.blockOffset start, count * a.blockSize)

/-- Free the blocks of the allocation at `off`, as many as `l` needs. -/
def dealloc (off : Int64) (l : Layout) : Act Arena Unit := do
  let a ← get
  if !a.owns (.offset off.toInt) then Act.fail .deallocForeign
  else
    let block := a.blockIndex off
    let count := a.blocksFor l.size
    markRun block count false
    modify fun a => { a with allocationCount := a.allocationCount - 1,
                             usedBlocks := a.usedBlocks - count }

/-- Extend the allocation at `off` from `old` to `new` with the free blocks right after it.
    Answers the usable size and whether it succeeded; a smaller or equal request succeeds at
    once with the old size. A released arena has no buffer, so no address lies before a block of
    it and every real growth fails. -/
def growInPlace (off : Int64) (old new : Layout) : Act Arena (Int64 × Bool) := do
  let a ← get
  let block := a.blockIndex off
  let oldCount := a.blocksFor old.size
  let newCount := a.blocksFor new.size
  if newCount ≤ oldCount then pure (oldCount * a.blockSize, true)
  else if a.released || a.blockCount ≤ newCount || a.blockCount < block + newCount then
    pure (0, false)
  else
    let free ← Act.ofExcept (a.runFree (block + oldCount) (newCount - oldCount))
    if !free then pure (0, false)
    else
      markRun (block + oldCount) (newCount - oldCount) true
      modify fun a => { a with usedBlocks := a.usedBlocks + (newCount - oldCount) }
      pure (newCount * a.blockSize, true)

/-- Give back the blocks of the allocation at `off` that `new` no longer needs; answers the
    usable size. -/
def shrinkInPlace (off : Int64) (old new : Layout) : Act Arena Int64 := do
  let a ← get
  let block := a.blockIndex off
  let oldCount := a.blocksFor old.size
  let newCount := a.blocksFor new.size
  if oldCount ≤ newCount then pure (oldCount * a.blockSize)
  else
    markRun (block + newCount) (oldCount - newCount) false
    modify fun a => { a with usedBlocks := a.usedBlocks - (oldCount - newCount) }
    pure (newCount * a.blockSize)

end Arena

end BlockArena
