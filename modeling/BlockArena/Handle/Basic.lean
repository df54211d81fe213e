import BlockArena.Elem
import BlockArena.Layout.Check
import BlockArena.Storage.Basic

/-! # Typed handles

Typed handles view a storage handle as holding elements of one type:

* `Typed` holds one element;
* `Slice` holds a run of elements and carries its length, the number of elements that fit in
  the usable size the storage gave it;
* `Sliced` holds a run whose length is read from the storage on every use, as the usable size
  it records divided by the element size.

Handles of zero-sized elements never reach the storage: they resolve to the dangling address,
and resizing them does nothing. Every request that fails comes in two forms: one that hands the
fault back (`try…`), and one that aborts with `Fault.allocationAborted` for the layout it asked
for (`abortOn`). Aborts inside the storage stay what they are in both forms.

A resolved handle is a `View`: the address of the first element, the element count of a run,
and the number of bytes behind the address. A run is resolved only when it fits in the address
space above its first element (`View.ofRun`); its raw address needs no such check.
-/

set_option autoImplicit false

namespace BlockArena

/-- A handle to one element. -/
structure Typed (H : Type) where
  elem : Elem
  raw : H
  deriving Inhabited, Repr

/-- A handle to a run of elements that carries its length. -/
structure Slice (H : Type) where
  elem : Elem
  raw : H
  len : Int64
  deriving Inhabited, Repr

/-- A handle to a run of elements whose length the storage records. -/
structure Sliced (H : Type) where
  elem : Elem
  raw : H
  deriving Inhabited, Repr

/-- A resolved handle: where its first element is, how many elements a run has, and how many
    bytes lie behind the address. -/
structure View where
  ptr : Addr
  len : Option Int64
  bytes : Int
  deriving DecidableEq, Inhabited, Repr

/-- The view of a run of `len` elements of `e` at `p`. The run exists when its length is not
    negative and its bytes fit in the room above `p`; a run of zero-sized elements takes no room,
    but at the null address it must be empty. -/
def View.ofRun (p : Addr) (e : Elem) (len : Int64) : Except Fault View :=
  let bytes := e.size.toInt * len.toInt
  if len < 0 then .error .runOutOfRange
  else if e.isZeroSized then
    if p = .null && 0 < len then .error .runAtNull else .ok ⟨p, some len, 0⟩
  else if p.room < bytes then .error (if p = .null then .runAtNull else .runOutOfRange)
  else .ok ⟨p, some len, bytes⟩

namespace Handle

variable {σ H : Type} [Storage σ H]

/-- Run a request in its aborting form: a refusal becomes an abort for `l`, while aborts stay
    what they are. The state the request left is kept either way. -/
def abortOn {α : Type} (l : Layout) (act : Act σ α) : Act σ α := fun s =>
  match act s with
  | .ok a s' => .ok a s'
  | .error f s' => .error (if f.aborts then f else .allocationAborted l) s'

def formOf {α : Type} (aborting : Bool) (l : Layout) (act : Act σ α) : Act σ α :=
  if aborting then abortOn l act else act

/-- The layout an aborted request for `count` elements reports: the array of them, or one
    element when the array has no layout. -/
def failureLayout (e : Elem) (count : Int64) : Layout :=
  match Layout.array e.layout count with
  | .ok l => l
  | .error _ => e.layout

/-- The address of every zero-sized element: the dangling address. -/
def zeroSizedAddr (e : Elem) : Act σ Addr := Act.ofExcept (Addr.danglingFor e.align)

/-- The usable size a storage records for a handle; a storage that records none answers
    zero. -/
def sizeOf (h : H) : Act σ Int64 :=
  match Storage.resolveSize? (σ := σ) with
  | some f => f h
  | none => pure 0

/-- Resize a run of `oldLen` elements to `newLen`, in a form whose region counts elements.
    Answers the replacing handle and the new element count; zero-sized elements keep their
    handle and count every element there is. -/
def resizeElems (e : Elem) (h : H) (oldLen newLen : Int64) (form : ResizeForm) :
    Act σ (H × Int64) := do
  if e.isZeroSized then pure (h, Word.maxInt)
  else
    let old ← Act.ofExcept (Layout.array e.layout oldLen)
    let new ← Act.ofExcept (Layout.array e.layout newLen)
    let (h', n) ← Storage.resizeWith { form with region := form.region.map (·.scale e.size) } h
      old new
    pure (h', n / e.size)

end Handle

end BlockArena
