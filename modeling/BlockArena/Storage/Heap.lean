import BlockArena.Heap
import BlockArena.Storage.Alloc

/-! # Allocation storage over the process heap

An allocation storage over the process heap hands out the addresses the heap serves. The
runtime hands the heap each buffer it asks for zeroed, at a place of its choosing; the runtime is
not part of the model, so where it puts the `k`-th buffer is data of the storage
(`HeapStore.runtime`). The bytes of the buffers are kept around an empty buffer at their distance
from `Addr.arenaAt`: the address `ptr` is `Addr.offset (ptr - arenaAt)`, and lies where
`Addr.position` says. Freeing an address the heap did not serve aborts.
-/

set_option autoImplicit false

namespace BlockArena

/-- An allocation storage over the process heap. -/
structure HeapStore where
  heap : Heap := {}
  /-- The bytes of the heap's buffers, all around an empty buffer. -/
  space : Space := ⟨ByteArray.empty, []⟩
  /-- Where the runtime puts the `k`-th buffer the heap asks for. -/
  runtime : Nat → Heap.Placement
  asked : Nat := 0
  epoch : UInt64 := 0

namespace HeapStore

/-- Where the byte at address `ptr` lies in the storage's memory. -/
def pos (ptr : UInt64) : Int := ptr.toNat - Addr.arenaAt

def addr (ptr : UInt64) : Addr := .offset (pos ptr)

def onHeap {α : Type} (act : Act Heap α) : Act HeapStore α :=
  Act.focus (·.heap) (fun s h => { s with heap := h }) act

def bump : Act HeapStore Unit :=
  modify fun s => { s with epoch := s.epoch + 1 }

/-- The next buffer the heap asks the runtime for, to serve `l`: where the runtime puts it, and
    its length, the size served and the padding. -/
def bufferFor (s : HeapStore) (l : Layout) : UInt64 × Int64 :=
  let length := Heap.served l + Heap.padding l
  (s.runtime s.asked length, length)

/-- Serve a layout from the next buffer the runtime places, which comes zeroed. -/
def alloc (l : Layout) : Act HeapStore (Addr × Int64) := do
  let s ← get
  let (ptr, n) ← onHeap (Heap.alloc (s.runtime s.asked) l)
  let buf := s.bufferFor l
  modify fun t => { t with asked := t.asked + 1,
                           space := t.space.fill0 (pos buf.1) (pos buf.1 + buf.2.toInt) }
  pure (addr ptr, n)

/-- Free the allocation at an address; one that is not a heap address aborts. -/
def dealloc (p : Addr) (_l : Layout) : Act HeapStore Unit :=
  match p with
  | .offset off => onHeap (Heap.dealloc (UInt64.ofNat (off + Addr.arenaAt).toNat))
  | _ => Act.fail .heapForeign

def backing : AllocBacking HeapStore where
  alloc := alloc
  dealloc := dealloc
  epoch := (·.epoch)
  bump := bump
  memory := (·.space)
  setMemory s m := { s with space := m }

end HeapStore

instance : Storage HeapStore Addr := HeapStore.backing.storage

end BlockArena
