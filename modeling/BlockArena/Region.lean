import BlockArena.Fault

/-! # Copy regions

A region names the bytes (or elements) that a resize keeps: `size` units read from `src` in
the old allocation and written at `dst` in the new one. `Region.scale` turns a region of
elements into one of bytes by multiplying every field (wrapping). `Region.fits` checks a region
against the old and new lengths: no field negative, the read ends within the old length, the
write ends within the new one, in that order, with the end offsets computed as words.
-/

set_option autoImplicit false

namespace BlockArena

/-- Keep `size` units read at `src` and written at `dst`. -/
structure Region where
  src : Int64 := 0
  dst : Int64 := 0
  size : Int64 := 0
  deriving DecidableEq, Inhabited, Repr

namespace Region

/-- The region that keeps the first `size` units in place. -/
def prefixOf (size : Int64) : Region := { size := size }

/-- A region of elements of `elemSize` bytes, measured in bytes. -/
def scale (r : Region) (elemSize : Int64) : Region :=
  ⟨r.src * elemSize, r.dst * elemSize, r.size * elemSize⟩

/-- Why the region does not fit between allocations of `oldLen` and `newLen` units. -/
def fits (r : Region) (oldLen newLen : Int64) : Except Fault Unit :=
  if r.src < 0 || r.dst < 0 || r.size < 0 then .error (.regionNegative r.src r.dst r.size)
  else if oldLen < r.src + r.size then .error (.regionReadsPast r.src (r.src + r.size) oldLen)
  else if newLen < r.dst + r.size then .error (.regionWritesPast r.dst (r.dst + r.size) newLen)
  else .ok ()

end Region

end BlockArena
