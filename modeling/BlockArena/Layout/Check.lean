import BlockArena.Fault

/-! # Checking layouts

A layout can be served when its size is not negative, its alignment is a power of two, and
rounding the size up to the alignment stays within the signed range:
`size ≤ maxInt - (align - 1)`, where `align - 1` is taken as a signed word. The three checks
run in that order and the first failure is the answer.

An array of `count` elements of one layout has `count * size` bytes and the element alignment;
it exists when the count is not negative and the product does not overflow.
-/

set_option autoImplicit false

namespace BlockArena

namespace Layout

/-- The largest size that can still be rounded up to `align`: `maxInt - (align - 1)`, with the
    difference taken on signed words. -/
def maxSizeFor (align : UInt64) : Int64 :=
  Word.maxInt - (align - 1).toInt64

def check (l : Layout) : Except Fault Unit :=
  if l.size < 0 then .error (.negativeSize l.size)
  else if !Word.isPow2 l.align then .error (.notPowerOfTwo "layout alignment" l.align.toNat)
  else if maxSizeFor l.align < l.size then .error (.sizeOverflows l.size l.align)
  else .ok ()

def isValid (l : Layout) : Bool :=
  match l.check with
  | .ok _ => true
  | .error _ => false

def make (size : Int64) (align : UInt64) : Except Fault Layout :=
  let l : Layout := ⟨size, align⟩
  l.check.map fun _ => l

/-- The layout of `count` elements laid out one after another. -/
def array (elem : Layout) (count : Int64) : Except Fault Layout :=
  if count < 0 || Word.mulOverflows elem.size count then
    .error (.arrayOverflows count elem.size)
  else .ok ⟨elem.size * count, elem.align⟩

end Layout

end BlockArena
