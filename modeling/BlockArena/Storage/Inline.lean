import BlockArena.Elem
import BlockArena.Storage.Basic

/-! # Inline storage

An inline storage holds at most one allocation in a fixed buffer of `capacity` elements of one
type. Every allocation gets the whole buffer, so its usable size is the buffer's size, and
resizing never moves memory: a region form shifts the kept bytes inside the buffer. A layout
fits when it is no larger than the buffer and no more strictly aligned than the element type;
growing checks that the new layout fits, shrinking does not.

The handle carries nothing. The buffer starts at offset `0`; an empty buffer is the dangling
address. Allocating, freeing and every resize bump the epoch; a resize whose shift
`Memory.move` refuses aborts before it bumps.
-/

set_option autoImplicit false

namespace BlockArena

/-- A buffer of `capacity` elements holding at most one allocation. -/
structure InlineStore where
  elem : Elem
  capacity : Int64
  bytes : ByteArray
  /-- The runs written around the buffer. -/
  around : List (Int × ByteArray) := []
  allocated : Bool := false
  epoch : UInt64 := 0

namespace InlineStore

/-- The largest buffer that can be made, in bytes: `2^48`. -/
def maxBytes : Int64 := 281474976710656

/-- An empty storage of `capacity` elements; a negative capacity, or a buffer beyond
    `maxBytes`, cannot be made. -/
def create (e : Elem) (capacity : Int64) : Except Fault InlineStore :=
  if capacity < 0 || (0 < e.size && maxBytes / e.size < capacity) then .error .lengthOutOfRange
  else .ok { elem := e, capacity := capacity,
             bytes := Buffer.zeros (e.size * capacity).toNatClampNeg }

def space (s : InlineStore) : Space := ⟨s.bytes, s.around⟩

def withSpace (s : InlineStore) (m : Space) : InlineStore :=
  { s with bytes := m.buffer, around := m.around }

def capacityBytes (s : InlineStore) : Int64 := s.elem.size * s.capacity

/-- Where the buffer starts: offset `0`, or the dangling address when it is empty. -/
def base (s : InlineStore) : Addr := if s.capacity = 0 then .dangling else .offset 0

def fits (s : InlineStore) (l : Layout) : Except Fault Unit :=
  if s.capacityBytes < l.size then .error (.inlineTooSmall l s.capacityBytes)
  else if s.elem.align < l.align then .error (.inlineOverAligned l)
  else .ok ()

def bump : Act InlineStore Unit :=
  modify fun s => { s with epoch := s.epoch + 1 }

/-- Hand out the buffer, if the layout fits and the buffer is free. -/
def allocate (l : Layout) : Act InlineStore (Unit × Int64) := do
  let s ← get
  Act.ofExcept (s.fits l)
  if s.allocated then Act.fail .inlineOccupied
  else
    set { s with allocated := true }
    bump
    pure ((), s.capacityBytes)

def deallocate (_h : Unit) (_l : Layout) : Act InlineStore Unit := do
  modify fun s => { s with allocated := false }
  bump

/-- Resize within the buffer: check that a grown layout fits, then shift the kept region. -/
def resize (grow : Bool) (_h : Unit) (_old new : Layout) (r : Region) :
    Act InlineStore (Unit × Int64) := do
  let s ← get
  if grow then Act.ofExcept (s.fits new)
  if r.src != r.dst then
    set (s.withSpace (← Act.ofExcept (Memory.move s.space s.base r.dst.toInt s.base
      r.src.toInt r.size)))
  bump
  pure ((), s.capacityBytes)

end InlineStore

instance : Storage InlineStore Unit where
  dangling _ := pure ()
  resolve _ := do pure (← get).base
  resolveSize? := some fun _ => do pure (← get).capacityBytes
  allocate := InlineStore.allocate
  deallocate := InlineStore.deallocate
  resize := InlineStore.resize
  epoch := (·.epoch)
  addressStable := false
  memory := InlineStore.space
  setMemory := InlineStore.withSpace

end BlockArena
