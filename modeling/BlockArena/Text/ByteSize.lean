/-! # Byte counts in binary units

A byte count is written in the largest binary unit (B, KiB, MiB, GiB, TiB, PiB, EiB) that it
reaches, with one decimal below ten units and none from ten on. The figure is computed the
way a binary64 pipeline computes it, and every step here is that step done exactly on natural
numbers:

1. the count is rounded to 53 significant bits (ties to even);
2. the unit is chosen by `unitStarts`, the smallest rounded count written in each unit;
3. the count in that unit is scaled by ten and rounded to 53 bits, a half is added and the sum
   rounded to 53 bits again, and the floor of that is the figure in tenths;
4. below ten units the tenths are printed as `a.b`; from ten units on the figure is rounded to
   a whole number, a tie going to the even neighbour.

Counts below ten are written plainly, `7 B`.
-/

set_option autoImplicit false

namespace BlockArena

namespace Text

/-- Round a natural number to 53 significant bits, a tie going to the even neighbour. The
    result keeps the scale of the input: its low bits are zero. -/
def roundSignificand (n : Nat) : Nat :=
  let width := Nat.log2 n + 1
  if width ≤ 53 then n
  else
    let d := width - 53
    let q := n / Nat.pow 2 d
    let r := n % Nat.pow 2 d
    let half := Nat.pow 2 (d - 1)
    let q' := if half < r || (r == half && q % 2 == 1) then q + 1 else q
    q' * Nat.pow 2 d

def byteUnits : List String := ["B", "KiB", "MiB", "GiB", "TiB", "PiB", "EiB"]

/-- The smallest rounded count written in each unit of `byteUnits` after the first. Up to
    TiB these are the powers of 1024 themselves; the last two lie a little below 2^50 and 2^60,
    where the base-1024 logarithm of the rounded count already reaches the next whole number. -/
def unitStarts : List Nat :=
  [1024, 1048576, 1073741824, 1099511627776, 1125899906842621, 1152921504606840832]

/-- The exponent of the unit of a rounded count: how many entries of `unitStarts` it reaches. -/
def unitExponent (x : Nat) : Nat :=
  (unitStarts.filter fun t => t ≤ x).length

/-- The figure in tenths of a unit, for a rounded count `x` in the unit `1024 ^ e`. -/
def tenthsInUnit (x e : Nat) : Nat :=
  let shift := 10 * e
  let y := roundSignificand (10 * x)
  let z := roundSignificand (2 * y + Nat.pow 2 shift)
  z / Nat.pow 2 (shift + 1)

/-- Whole units from a figure in tenths: a remainder of exactly one half goes to the even
    neighbour. -/
def roundTenths (w : Nat) : Nat :=
  let n := w / 10
  let d := w % 10
  if d < 5 then n else if 5 < d then n + 1 else if n % 2 == 0 then n else n + 1

def byteSize (s : Nat) : String :=
  if s < 10 then s!"{s} B"
  else
    let x := roundSignificand s
    let e := unitExponent x
    let unit := byteUnits.getD e "EiB"
    let w := tenthsInUnit x e
    if w < 100 then
      let whole := w / 10
      let tenth := w % 10
      s!"{whole}.{tenth} {unit}"
    else
      let whole := roundTenths w
      s!"{whole} {unit}"

end Text

end BlockArena
