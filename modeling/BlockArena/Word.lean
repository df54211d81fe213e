/-! # Machine words and the arithmetic rules on them

Sizes, counts and offsets are signed 64-bit words (`Int64`); alignments are unsigned 64-bit
words (`UInt64`). Every operation here wraps modulo `2^64` and division truncates toward zero,
so the rules below are exact on every input, including those that overflow.

* `Word.isPow2` / `Word.isPow2Signed`: a positive power of two.
* `Word.alignUp v a`: `v` rounded up to a multiple of the power of two `a`, by masking.
* `Word.divCeil a b`: `(a + b - 1) / b`; callers treat `b = 0` as a fault before calling it.
* `Word.mulOverflows a b`: the wrapped product of `a` and `b` does not equal the true one
  (checked by dividing back and by the sign).
-/

set_option autoImplicit false

namespace BlockArena

namespace Word

def maxInt : Int64 := Int64.maxValue

def minInt : Int64 := Int64.minValue

/-- An unsigned word is a power of two when it is non-zero and has a single bit set. -/
def isPow2 (n : UInt64) : Bool :=
  n != 0 && (n &&& (n - 1)) == 0

/-- A signed word is a power of two when it is positive and has a single bit set. -/
def isPow2Signed (n : Int64) : Bool :=
  0 < n && (n &&& (n - 1)) == 0

/-- Round `v` up to a multiple of the alignment `a`: add `a - 1`, then clear the bits below
    `a`. Both steps wrap, so a value near the top of the range wraps to a negative word. -/
def alignUp (v : Int64) (a : UInt64) : Int64 :=
  (v + a.toInt64 - 1) &&& (~~~(a - 1)).toInt64

/-- Ceiling division `(a + b - 1) / b`: the sum wraps and the quotient truncates toward zero.
    For a zero divisor the result is meaningless; callers reject that case first. -/
def divCeil (a b : Int64) : Int64 :=
  (a + b - 1) / b

/-- The product `a * b` does not fit in a signed word. A zero factor never overflows;
    otherwise the wrapped product either does not divide back to `a` or is negative. -/
def mulOverflows (a b : Int64) : Bool :=
  if a == 0 || b == 0 then false
  else
    let p := a * b
    p / b != a || p < 0

end Word

end BlockArena
