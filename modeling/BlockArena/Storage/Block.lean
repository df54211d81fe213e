import BlockArena.Arena.Alloc
import BlockArena.Flags
import BlockArena.Storage.Basic

/-! # Block storage

A block storage issues numbered handles over a block arena it owns. Each live handle maps to an
entry: the allocation's offset, the layout it was made for and its usable size. Handle `0` is
the dangling handle and never names an entry; numbers count up from `1` and are never reused.

Because handles are looked up on every use, the storage may move allocations: a resize keeps
the handle number. It resizes in place when resizing in place is allowed (flag
`NoInPlaceResize` clear) and the allocation's address already has the new alignment: growing
claims the free blocks after it, shrinking gives back its tail. Otherwise, or when growing in
place finds no room, it allocates anew, copies the kept region and frees the old blocks.

Every change bumps the epoch once. Using a handle that names no entry aborts.

Bytes are moved as `Memory.move` moves them, so a region whose size is negative aborts the
resize where the move happens: after growing in place or allocating anew, and before shrinking
in place. What the arena did up to there stays done, while the entry, the epoch and the bytes
stay as they were.
-/

set_option autoImplicit false

namespace BlockArena

/-- A live allocation of a block storage. -/
structure BlockEntry where
  offset : Int64
  layout : Layout
  size : Int64
  deriving DecidableEq, Inhabited, Repr

/-- Numbered handles over a block arena. -/
structure BlockStore where
  arena : Arena
  flags : Int32
  /-- The live handles and their entries. -/
  entries : List (UInt64 × BlockEntry) := []
  nextHandle : UInt64 := 1
  epoch : UInt64 := 0
  /-- The runs written around the arena's buffer. -/
  around : List (Int × ByteArray) := []

namespace BlockStore

def space (s : BlockStore) : Space := ⟨s.arena.bytes, s.around⟩

def withSpace (s : BlockStore) (m : Space) : BlockStore :=
  { s with arena := { s.arena with bytes := m.buffer }, around := m.around }

def danglingHandle : UInt64 := 0

def onArena {α : Type} (act : Act Arena α) : Act BlockStore α :=
  Act.focus (·.arena) (fun s a => { s with arena := a }) act

/-- The entry of a live handle; any other handle aborts. -/
def lookup (h : UInt64) : Act BlockStore BlockEntry := do
  match (← get).entries.lookup h with
  | some e => pure e
  | none => Act.fail (.handleNotLive h)

def put (h : UInt64) (e : BlockEntry) : Act BlockStore Unit :=
  modify fun s => { s with entries := (h, e) :: s.entries.filter (·.1 != h) }

def bump : Act BlockStore Unit :=
  modify fun s => { s with epoch := s.epoch + 1 }

/-- The dangling handle, for an alignment the dangling address serves. -/
def dangling (align : UInt64) : Act BlockStore UInt64 := do
  Act.ofExcept (Addr.checkDanglingAlign align)
  pure danglingHandle

/-- The address of a handle: the dangling address for handle `0`. -/
def resolve (h : UInt64) : Act BlockStore Addr := do
  if h = danglingHandle then pure .dangling
  else pure (.offset (← lookup h).offset.toInt)

/-- The usable size of a handle's allocation: `0` for handle `0`. -/
def resolveSize (h : UInt64) : Act BlockStore Int64 := do
  if h = danglingHandle then pure 0
  else pure (← lookup h).size

/-- Allocate from the arena under the next handle number. -/
def allocate (l : Layout) : Act BlockStore (UInt64 × Int64) := do
  let (off, size) ← onArena (Arena.alloc l)
  let h := (← get).nextHandle
  modify fun s => { s with nextHandle := h + 1 }
  put h ⟨off, l, size⟩
  bump
  pure (h, size)

/-- Free a handle's blocks as its entry records them, whatever layout the caller names. -/
def deallocate (h : UInt64) (_l : Layout) : Act BlockStore Unit := do
  let e ← lookup h
  onArena (Arena.dealloc e.offset e.layout)
  modify fun s => { s with entries := s.entries.filter (·.1 != h) }
  bump

/-- Move `r.size` bytes from `src + r.src` to `dst + r.dst` in the arena's buffer, as
    `Memory.move` does. -/
def moveRegion (dst src : Int64) (r : Region) : Act BlockStore Unit := do
  let s ← get
  let m ← Act.ofExcept (Memory.move s.space (.offset dst.toInt) r.dst.toInt
    (.offset src.toInt) r.src.toInt r.size)
  set (s.withSpace m)

/-- Resizing in place is allowed and the allocation's address has the new alignment. -/
def resizesInPlace (s : BlockStore) (e : BlockEntry) (new : Layout) : Bool :=
  (s.flags &&& Flags.noInPlaceResize) == 0 && Addr.alignedAt e.offset.toInt new.align

/-- Move a handle's allocation to `new`, keeping `r`, in place when possible. -/
def resize (_grow : Bool) (h : UInt64) (_old new : Layout) (r : Region) :
    Act BlockStore (UInt64 × Int64) := do
  let e ← lookup h
  let placed : Option Int64 ←
    if resizesInPlace (← get) e new then
      if e.size < new.size then
        let (n, ok) ← onArena (Arena.growInPlace e.offset e.layout new)
        if ok then
          moveRegion e.offset e.offset r
          pure (some n)
        else pure none
      else
        moveRegion e.offset e.offset r
        pure (some (← onArena (Arena.shrinkInPlace e.offset e.layout new)))
    else pure none
  match placed with
  | some n =>
    put h ⟨e.offset, new.withSize n, n⟩
    bump
    pure (h, n)
  | none =>
    let (off, n) ← onArena (Arena.alloc new)
    moveRegion off e.offset r
    onArena (Arena.dealloc e.offset e.layout)
    put h ⟨off, new, n⟩
    bump
    pure (h, n)

def count (s : BlockStore) : Nat := s.entries.length

end BlockStore

instance : Storage BlockStore UInt64 where
  dangling := BlockStore.dangling
  resolve := BlockStore.resolve
  resolveSize? := some BlockStore.resolveSize
  allocate := BlockStore.allocate
  deallocate := BlockStore.deallocate
  resize := BlockStore.resize
  epoch := (·.epoch)
  addressStable := false
  memory := BlockStore.space
  setMemory := BlockStore.withSpace

end BlockArena
