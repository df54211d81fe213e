import BlockArena.Act
import BlockArena.Memory
import BlockArena.Region
import BlockArena.Layout

/-! # Storages

A storage hands out opaque handles instead of addresses. A handle becomes an address only
through `Storage.resolve`, and that address is good until the next call that changes the
storage, since any such call may move memory; `Storage.epoch` counts those calls.

The class holds what each storage does in its own way: allocating, freeing, and moving an
allocation to a new layout while keeping one region of its bytes. Everything else is built on
top of it once, for all storages:

* `allocateZeroed` allocates and clears every usable byte;
* `resizeWith` resizes in one of eight forms: growing or shrinking, keeping the common prefix
  or a given region, and clearing the bytes that were not kept or not. It is a member of the
  class with a default built from `resize` (`resizeBy`), so that a storage wrapping another
  can hand a whole form to the storage it wraps.

A storage may also record the usable size of each allocation (`Storage.resolveSize?`); the
handles whose length lives in the storage need such a storage.
-/

set_option autoImplicit false

namespace BlockArena

/-- How a resize keeps the old bytes: growing or shrinking, whether the bytes that were not
    kept are cleared, and the region kept; without a region, the common prefix is kept. -/
structure ResizeForm where
  grow : Bool
  zeroed : Bool
  region : Option Region
  deriving DecidableEq, Inhabited, Repr

namespace ResizeForm

/-- What a form's name in a request says: growing or shrinking, clearing or not, and keeping
    a given region or the common prefix. The names are `grow`, `grow_zeroed`, `grow_region`,
    `grow_region_zeroed` and the same four with `shrink`. -/
def partsOf? : String → Option (Bool × Bool × Bool)
  | "grow" => some (true, false, false)
  | "grow_zeroed" => some (true, true, false)
  | "grow_region" => some (true, false, true)
  | "grow_region_zeroed" => some (true, true, true)
  | "shrink" => some (false, false, false)
  | "shrink_zeroed" => some (false, true, false)
  | "shrink_region" => some (false, false, true)
  | "shrink_region_zeroed" => some (false, true, true)
  | _ => none

/-- The method name of a form: `Grow`, `GrowZeroed`, `GrowRegion`, `ShrinkRegionZeroed` and
    so on. -/
def name (f : ResizeForm) : String :=
  (if f.grow then "Grow" else "Shrink") ++ (if f.region.isSome then "Region" else "") ++
    (if f.zeroed then "Zeroed" else "")

/-- The region a form keeps: its own, or the common prefix of the old and new layouts. -/
def kept (form : ResizeForm) (old new : Layout) : Region :=
  form.region.getD (Region.prefixOf (if form.grow then old.size else new.size))

end ResizeForm

/-- Resize in a form on top of a plain resize: resize keeping the form's region, then, for a
    zeroed form, clear every usable byte that the kept region did not write, around the region's
    destination or past the kept prefix, as `Memory.clear` clears. The storage's own operations
    are passed in, so that this serves as every storage's way of resizing in a form. -/
def resizeBy {σ H : Type} (resolve : H → Act σ Addr) (memory : σ → Space)
    (setMemory : σ → Space → σ)
    (resize : Bool → H → Layout → Layout → Region → Act σ (H × Int64))
    (form : ResizeForm) (h : H) (old new : Layout) : Act σ (H × Int64) := do
  let (h', n) ← resize form.grow h old new (form.kept old new)
  if form.zeroed then
    let p ← resolve h'
    let clear := fun (lo hi : Int64) => do
      let m ← Act.ofExcept (Memory.clear (memory (← get)) p lo hi)
      modify fun s => setMemory s m
    match form.region with
    | some r =>
      clear 0 r.dst
      clear (r.dst + r.size) n
    | none => clear (if form.grow then old.size else new.size) n
  pure (h', n)

/-- The contract of a storage `σ` whose handles are `H`. -/
class Storage (σ : Type) (H : outParam Type) where
  /-- A handle that refers to no memory, for a given alignment. -/
  dangling : UInt64 → Act σ H
  /-- The address a handle stands for. -/
  resolve : H → Act σ Addr
  /-- The usable size of a handle's allocation, when the storage records it. -/
  resolveSize? : Option (H → Act σ Int64)
  /-- Serve a layout; answers the handle and the usable size, which may exceed the request. -/
  allocate : Layout → Act σ (H × Int64)
  /-- Free a handle's allocation, which was made for the given layout. -/
  deallocate : H → Layout → Act σ Unit
  /-- Move an allocation from the old layout to the new one (growing when the flag is set),
      keeping the bytes of a region; answers the handle that replaces the old one and the
      usable size. -/
  resize : Bool → H → Layout → Layout → Region → Act σ (H × Int64)
  /-- A counter that goes up whenever memory may have moved. -/
  epoch : σ → UInt64
  /-- Resolved addresses stay where they are until their allocation is resized or freed. -/
  addressStable : Bool
  /-- The bytes behind the addresses the storage hands out, and around them. -/
  memory : σ → Space
  /-- Replace those bytes. -/
  setMemory : σ → Space → σ
  /-- Resize in one of the eight forms; by default as `resizeBy` builds it from `resize`. -/
  resizeWith : ResizeForm → H → Layout → Layout → Act σ (H × Int64) :=
    resizeBy resolve memory setMemory resize

namespace Storage

variable {σ H : Type} [Storage σ H]

def modifyMemory (f : Space → Space) : Act σ Unit :=
  modify fun s => setMemory s (f (memory s))

/-- Set the bytes `[lo, hi)` past an address to zero, as `Memory.clear` does. -/
def zero (p : Addr) (lo hi : Int64) : Act σ Unit := do
  let m ← Act.ofExcept (Memory.clear (memory (← get)) p lo hi)
  modify fun s => setMemory s m

/-- Allocate and set every usable byte to zero. -/
def allocateZeroed (l : Layout) : Act σ (H × Int64) := do
  let (h, n) ← allocate l
  zero (← resolve h) 0 n
  pure (h, n)

/-- The storage tracks the usable size of every allocation. -/
def isSliced : Bool := (resolveSize? (σ := σ)).isSome

end Storage

end BlockArena
