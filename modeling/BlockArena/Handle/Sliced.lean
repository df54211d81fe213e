import BlockArena.Handle.Basic

/-! # Runs whose length the storage records

A `Sliced` handle carries no length: it is the usable size the storage records for the handle
divided by the element size, read on every use. Nothing records how many zero-sized elements
were asked for, so their runs have length `0`. `cast` views the run as elements of another
type that is zero-sized exactly when the first one is and no more strictly aligned.
-/

set_option autoImplicit false

namespace BlockArena

namespace Sliced

variable {σ H : Type} [Storage σ H]

def tryDangling (e : Elem) : Act σ (Sliced H) := do
  pure ⟨e, ← Storage.dangling e.align⟩

def tryAllocate (e : Elem) (count : Int64) (zeroed : Bool) : Act σ (Sliced H) := do
  let l ← Act.ofExcept (Layout.array e.layout count)
  if e.isZeroSized then tryDangling e
  else
    let (h, _) ← if zeroed then Storage.allocateZeroed l else Storage.allocate l
    pure ⟨e, h⟩

/-- The number of elements the storage holds for the run. -/
def len (s : Sliced H) : Act σ Int64 := do
  if s.elem.isZeroSized then pure 0
  else pure ((← Handle.sizeOf s.raw) / s.elem.size)

/-- Free the run's allocation, named by the usable size the storage records. -/
def deallocate (s : Sliced H) : Act σ Unit := do
  if s.elem.isZeroSized then pure ()
  else Storage.deallocate s.raw ⟨← Handle.sizeOf s.raw, s.elem.align⟩

/-- The address of the run and the number of elements the storage holds there. -/
def resolveRaw (s : Sliced H) : Act σ (Addr × Int64) := do
  if s.elem.isZeroSized then pure (← Handle.zeroSizedAddr s.elem, 0)
  else
    let p ← Storage.resolve s.raw
    pure (p, (← Handle.sizeOf s.raw) / s.elem.size)

/-- The run, resolved: its length must fit above its address. -/
def resolve (s : Sliced H) : Act σ View := do
  let (p, n) ← s.resolveRaw
  Act.ofExcept (View.ofRun p s.elem n)

/-- Resize to `newLen` elements, from the length the storage records. -/
def tryResize (s : Sliced H) (newLen : Int64) (form : ResizeForm) : Act σ (Sliced H) := do
  let (h, _) ← Handle.resizeElems s.elem s.raw (← s.len) newLen form
  pure { s with raw := h }

def cast (s : Sliced H) (target : Elem) : Except Fault (Sliced H) :=
  if s.elem.isZeroSized != target.isZeroSized then .error (.castSize s.elem target)
  else if s.elem.align < target.align then .error (.castAlign s.elem target)
  else .ok { s with elem := target }

end Sliced

end BlockArena
