import BlockArena.Handle.Basic

/-! # Runs that carry their length

A `Slice` carries its length: the number of elements that fit in the usable size the storage
gave it, which may exceed the count asked for. A run of zero-sized elements never reaches the
storage and, once allocated, counts `Word.maxInt` elements. Freeing names the layout of
`len` elements.
-/

set_option autoImplicit false

namespace BlockArena

namespace Slice

variable {σ H : Type} [Storage σ H]

def tryDangling (e : Elem) : Act σ (Slice H) := do
  pure ⟨e, ← Storage.dangling e.align, 0⟩

def tryAllocate (e : Elem) (count : Int64) (zeroed : Bool) : Act σ (Slice H) := do
  let l ← Act.ofExcept (Layout.array e.layout count)
  if e.isZeroSized then
    let d ← tryDangling e
    pure { d with len := Word.maxInt }
  else
    let (h, n) ← if zeroed then Storage.allocateZeroed l else Storage.allocate l
    pure ⟨e, h, n / e.size⟩

def isEmpty (s : Slice H) : Bool := s.len == 0

/-- Free the run's allocation, named by the layout of its `len` elements. -/
def deallocate (s : Slice H) : Act σ Unit :=
  if s.elem.isZeroSized then pure ()
  else Storage.deallocate s.raw ⟨s.len * s.elem.size, s.elem.align⟩

def resolveRaw (s : Slice H) : Act σ Addr :=
  if s.elem.isZeroSized then Handle.zeroSizedAddr s.elem else Storage.resolve s.raw

/-- The run, resolved: its length must fit above its address. -/
def resolve (s : Slice H) : Act σ View := do
  Act.ofExcept (View.ofRun (← s.resolveRaw) s.elem s.len)

/-- Resize to `newLen` elements; on success the handle and length are the storage's new ones. -/
def tryResize (s : Slice H) (newLen : Int64) (form : ResizeForm) : Act σ (Slice H) := do
  let (h, n) ← Handle.resizeElems s.elem s.raw s.len newLen form
  pure { s with raw := h, len := n }

end Slice

end BlockArena
