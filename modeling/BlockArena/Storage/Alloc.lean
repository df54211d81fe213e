import BlockArena.Storage.Basic

/-! # Storages over an allocator

An allocation storage hands out the addresses its allocator serves as its handles, so resolving
a handle is the identity, and an address stays put until its allocation is resized or freed. It
counts every allocation and every free in its epoch before it asks the allocator, also when the
allocator then refuses or aborts. Resizing always moves (`DefaultRelocate`): it allocates for the
new layout, copies the kept region and frees the old allocation, so a move counts twice. If the
new allocation is refused, the old one is untouched; a move whose region `Memory.move` refuses
aborts after the new allocation is made and before the old one is freed.

The allocator is a parameter (`AllocBacking`): how it serves a layout and frees an address on
the storage's state, and where the memory behind its addresses is. The block arena
(`AddressStore`) and the process heap (`HeapStore`) are the two the library ships.
-/

set_option autoImplicit false

namespace BlockArena

/-- What an allocation storage needs of the state it runs on: the requests of its allocator
    (`alloc.Allocator`: serve a layout with its usable size, free an address), its epoch and
    how to count a change, and the memory behind the addresses. -/
structure AllocBacking (σ : Type) where
  alloc : Layout → Act σ (Addr × Int64)
  dealloc : Addr → Layout → Act σ Unit
  epoch : σ → UInt64
  bump : Act σ Unit
  memory : σ → Space
  setMemory : σ → Space → σ

namespace AllocBacking

variable {σ : Type} (B : AllocBacking σ)

/-- Count the request, then serve it. -/
def allocate (l : Layout) : Act σ (Addr × Int64) := do
  B.bump
  B.alloc l

/-- Count the request, then free the allocation. -/
def deallocate (p : Addr) (l : Layout) : Act σ Unit := do
  B.bump
  B.dealloc p l

/-- Move an allocation to a new one for `new`, keeping the region `r`. -/
def resize (_grow : Bool) (p : Addr) (old new : Layout) (r : Region) : Act σ (Addr × Int64) := do
  let (p', n) ← B.allocate new
  let s ← get
  let m ← Act.ofExcept (Memory.move (B.memory s) p' r.dst.toInt p r.src.toInt r.size)
  set (B.setMemory s m)
  B.deallocate p old
  pure (p', n)

@[reducible] def storage : Storage σ Addr where
  dangling align := Act.ofExcept (Addr.danglingFor align)
  resolve p := pure p
  resolveSize? := none
  allocate := B.allocate
  deallocate := B.deallocate
  resize := B.resize
  epoch := B.epoch
  addressStable := true
  memory := B.memory
  setMemory := B.setMemory

end AllocBacking

end BlockArena
