import BlockArena.Arena.Basic

/-! # The occupancy table

Runs of blocks are read and written a table byte at a time, from the byte that holds the first
block of the run onward. A byte outside the table is an indexing fault; writing stops at the
first such byte, so the bytes before it keep their new values.

Within a byte, block `8k + j` is bit `7 - j`; the run's part of a byte is `spanMask j n`, the `n`
bits from position `j` counted from the top.
-/

set_option autoImplicit false

namespace BlockArena

namespace Arena

/-- The `n` top bits of a byte (all eight for `n ≥ 8`). -/
def topBits (n : Nat) : UInt8 :=
  ((0xFF00 >>> min n 8) &&& 0xFF : Nat).toUInt8

/-- `n` bits starting `j` places below the top bit. -/
def spanMask (j : Fin 8) (n : Nat) : UInt8 :=
  topBits n >>> j.val.toUInt8

def tableByte (a : Arena) (i : Int64) : Except Fault UInt8 :=
  if 0 ≤ i.toInt && i.toInt < a.tableLength then .ok (Buffer.byteAt a.bytes i.toNatClampNeg)
  else .error (.indexOutOfRange i.toInt a.tableLength)

/-- Where the run starting at block `first` begins: its table byte and its bit position. -/
def runStart (first : Int64) : Int64 × Fin 8 :=
  (first >>> 3, ⟨(first &&& 7).toNatClampNeg % 8, Nat.mod_lt _ (by decide)⟩)

/-- Whether the `count` blocks from bit `j` of table byte `i` on are all free, reading byte by
    byte and stopping at the first block in use. -/
def runFreeFrom (a : Arena) (i : Int64) (j : Fin 8) (count : Int) : Except Fault Bool :=
  if h : count ≤ 0 then .ok true
  else
    let here := min count (8 - j.val)
    match a.tableByte i with
    | .error f => .error f
    | .ok byte =>
      if (byte &&& spanMask j here.toNat) != 0 then .ok false
      else runFreeFrom a (i + 1) ⟨0, by decide⟩ (count - here)
termination_by count.toNat
decreasing_by omega

def runFree (a : Arena) (first count : Int64) : Except Fault Bool :=
  let (i, j) := runStart first
  a.runFreeFrom i j count.toInt

/-- Whether the `count` blocks from bit `j` of table byte `i` on are all in use, reading byte by
    byte and stopping at the first free block: the run's part of each byte must be all ones. -/
def runSetFrom (a : Arena) (i : Int64) (j : Fin 8) (count : Int) : Except Fault Bool :=
  if h : count ≤ 0 then .ok true
  else
    let here := min count (8 - j.val)
    match a.tableByte i with
    | .error f => .error f
    | .ok byte =>
      let mask := spanMask j here.toNat
      if (byte &&& mask) != mask then .ok false
      else runSetFrom a (i + 1) ⟨0, by decide⟩ (count - here)
termination_by count.toNat
decreasing_by omega

/-- Whether the `count` blocks from block `first` on are all in use. Only the debug build's
    check of a free asks this; the build that ships never calls it. -/
def runSet (a : Arena) (first count : Int64) : Except Fault Bool :=
  let (i, j) := runStart first
  a.runSetFrom i j count.toInt

/-- Set (`used = true`) or clear the bits of `count` blocks from bit `j` of table byte `i` on. -/
def markFrom (i : Int64) (j : Fin 8) (count : Int) (used : Bool) : Act Arena Unit :=
  fun a =>
    if h : count ≤ 0 then .ok () a
    else
      let here := min count (8 - j.val)
      match a.tableByte i with
      | .error f => .error f a
      | .ok byte =>
        let mask := spanMask j here.toNat
        let byte' := if used then byte ||| mask else byte &&& ~~~mask
        markFrom (i + 1) ⟨0, by decide⟩ (count - here) used
          { a with bytes := Buffer.setByte a.bytes i.toNatClampNeg byte' }
termination_by count.toNat
decreasing_by omega

def markRun (first count : Int64) (used : Bool) : Act Arena Unit :=
  let (i, j) := runStart first
  markFrom i j count.toInt used

def blockUsed (a : Arena) (b : Int64) : Except Fault Bool :=
  (a.tableByte (b >>> 3)).map fun byte =>
    (byte &&& ((0x80 : UInt8) >>> (b &&& 7).toNatClampNeg.toUInt8)) != 0

end Arena

end BlockArena
