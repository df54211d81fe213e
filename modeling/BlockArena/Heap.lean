import BlockArena.Act
import BlockArena.Layout.Check
import BlockArena.Stats

/-! # The process heap

The heap serves any valid layout of at most 1 TiB including its alignment padding, giving at
least one byte. For each request it asks the runtime for a fresh buffer of the size plus the
padding, and serves the first address in it that the alignment divides; the runtime is not part
of the model, so where it puts the buffer is a parameter of the request (`Placement`). The live
allocations are kept by the address served, in the order they were made, each with its buffer
and the bytes served from it; recording an address that is already there replaces its entry.
Freeing an address that is not live aborts.

Its statistics count one arena whose bytes are the live bytes.
-/

set_option autoImplicit false

namespace BlockArena

/-- A live heap allocation: the address of its backing buffer, the buffer's length, and the
    bytes served from it. -/
structure HeapBuffer where
  base : UInt64
  length : Int64
  size : Int64
  deriving DecidableEq, Inhabited, Repr

/-- The process heap: its live allocations by the address served (oldest first), the bytes they
    hold, and the allocator's id. -/
structure Heap where
  live : List (UInt64 × HeapBuffer) := []
  allocationBytes : Int64 := 0
  allocId : UInt16 := 0
  deriving Inhabited, Repr

namespace Heap

/-- Where the runtime puts a new zeroed buffer of the given length. -/
abbrev Placement := Int64 → UInt64

/-- The largest single request, padding included: 1 TiB. -/
def limit : Int64 := 1099511627776

/-- The bytes served for a layout: its size, but at least one. -/
def served (l : Layout) : Int64 := if l.size = 0 then 1 else l.size

/-- The room an alignment needs below the first aligned address, `align - 1` as a signed word. -/
def padding (l : Layout) : Int64 := l.align.toInt64 - 1

/-- The address served from a buffer at `base`: `base` moved up to a multiple of `align`, the
    shift computed on the address taken as a signed word. -/
def alignedIn (base align : UInt64) : UInt64 :=
  let addr := base.toInt64
  base + (Word.alignUp addr align - addr).toUInt64

def put (live : List (UInt64 × HeapBuffer)) (ptr : UInt64) (buf : HeapBuffer) :
    List (UInt64 × HeapBuffer) :=
  live.filter (fun e => e.1 != ptr) ++ [(ptr, buf)]

/-- Serve a layout from a buffer that `place` puts in memory; answers the address served and
    the bytes served. -/
def alloc (place : Placement) (l : Layout) : Act Heap (UInt64 × Int64) := do
  match l.check with
  | .error f => Act.fail (.invalidLayout f)
  | .ok () =>
    let size := served l
    if limit - padding l < size then Act.fail (.heapLimit l)
    else
      let length := size + padding l
      let base := place length
      let ptr := alignedIn base l.align
      let h ← get
      set { h with live := put h.live ptr ⟨base, length, size⟩,
                   allocationBytes := h.allocationBytes + size }
      pure (ptr, size)

def owns (h : Heap) (ptr : UInt64) : Bool := h.live.any fun e => e.1 == ptr

/-- Free a live allocation by its address; any other address aborts. -/
def dealloc (ptr : UInt64) : Act Heap Unit := do
  let h ← get
  match h.live.find? (fun e => e.1 == ptr) with
  | none => Act.fail .heapForeign
  | some (_, buf) =>
    set { h with live := h.live.filter (fun e => e.1 != ptr),
                 allocationBytes := h.allocationBytes - buf.size }

/-- The counts of the heap: one arena holding exactly the live bytes. -/
def stats (h : Heap) : Stats where
  arenaCount := 1
  allocationCount := Int64.ofNat h.live.length
  arenaBytes := h.allocationBytes
  allocationBytes := h.allocationBytes

end Heap

end BlockArena
