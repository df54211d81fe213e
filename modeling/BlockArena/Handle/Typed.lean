import BlockArena.Handle.Basic

/-! # Handles to one element

A `Typed` handle is the storage handle of an allocation made for one element. `coerce` views
the same allocation as another element type of the same size and no stricter alignment, so
freeing it still names the right layout.
-/

set_option autoImplicit false

namespace BlockArena

namespace Typed

variable {σ H : Type} [Storage σ H]

def tryDangling (e : Elem) : Act σ (Typed H) := do
  pure ⟨e, ← Storage.dangling e.align⟩

/-- Room for one element, left as the storage has it or cleared; zero-sized elements get the
    dangling handle. -/
def tryAllocate (e : Elem) (zeroed : Bool) : Act σ (Typed H) := do
  if e.isZeroSized then tryDangling e
  else
    let (h, _) ← if zeroed then Storage.allocateZeroed e.layout else Storage.allocate e.layout
    pure ⟨e, h⟩

def tryNew (e : Elem) (value : ByteArray) : Act σ (Typed H) := do
  let t ← tryAllocate e false
  if !e.isZeroSized then
    let p ← Storage.resolve t.raw
    Storage.modifyMemory fun m => Memory.write m p 0 value
  pure t

/-- Free the element's allocation; zero-sized elements have none. -/
def deallocate (t : Typed H) : Act σ Unit :=
  if t.elem.isZeroSized then pure () else Storage.deallocate t.raw t.elem.layout

def resolveRaw (t : Typed H) : Act σ Addr :=
  if t.elem.isZeroSized then Handle.zeroSizedAddr t.elem else Storage.resolve t.raw

def resolve (t : Typed H) : Act σ View := do
  pure ⟨← t.resolveRaw, none, t.elem.size.toInt⟩

/-- The same allocation viewed as another element type: same size, no stricter alignment. -/
def coerce (t : Typed H) (target : Elem) : Except Fault (Typed H) :=
  if t.elem.size != target.size then .error (.coerceSize t.elem target)
  else if t.elem.align < target.align then .error (.coerceAlign t.elem target)
  else .ok { t with elem := target }

end Typed

end BlockArena
