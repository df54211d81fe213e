import BlockArena.Act
import BlockArena.Addr
import BlockArena.Buffer
import BlockArena.Layout.Check

/-! # Block arenas

A block arena splits a buffer into blocks of `blockSize` bytes (a power of two). The first
`managementBlocks` blocks hold the occupancy table, one bit per block: block `i` is bit
`7 - i % 8` of table byte `i / 8`, set when the block is in use. The `blockCount` blocks that
follow are handed out; block `i` starts at byte `(managementBlocks + i) * blockSize` of the
buffer.

Sizing: a table of `blockCount` bits needs `⌈⌈blockCount / 8⌉ / blockSize⌉` management blocks,
and the whole buffer `(managementBlocks + blockCount) * blockSize` bytes (`neededBytes`); both
are computed on wrapping words.

The arena keeps no list of allocations. It counts them (`allocationCount`) and the blocks they
use (`usedBlocks`); freeing trusts the layout the caller passes, so these counters follow the
calls, not the table.
-/

set_option autoImplicit false

namespace BlockArena

/-- A buffer of equal blocks with an occupancy table in its leading blocks. -/
structure Arena where
  blockSize : Int64
  blockCount : Int64
  managementBlocks : Int64
  /-- The size of the buffer the arena was given. -/
  bufferSize : Int64
  bufferAlign : UInt64
  /-- The buffer, occupancy table first. -/
  bytes : ByteArray
  /-- The length of the occupancy table in bytes; zero once the arena is released. -/
  tableLength : Nat
  released : Bool := false
  allocationCount : Int64 := 0
  usedBlocks : Int64 := 0
  allocId : UInt16 := 0

namespace Arena

/-- Management blocks for `count` blocks of `blockSize` bytes (`blockSize` must not be zero). -/
def managementBlocksFor (blockSize count : Int64) : Int64 :=
  Word.divCeil (Word.divCeil count 8) blockSize

def neededBytesFor (blockSize count : Int64) : Int64 :=
  (managementBlocksFor blockSize count + count) * blockSize

def neededBytes (blockSize count : Int64) : Except Fault Int64 :=
  if blockSize = 0 then .error .divideByZero else .ok (neededBytesFor blockSize count)

/-- An arena over a zeroed buffer of `bufferSize` bytes. `present` is false when no buffer is
    given at all. The block size must be a power of two, the count positive, and the buffer
    large enough, checked in that order; then the occupancy table is taken as a run of
    `managementBlocks * blockSize` bytes (a wrapping product) at the buffer's start, which
    aborts when that length is negative. -/
def create (present : Bool) (bufferSize : Int64) (bufferAlign : UInt64)
    (blockSize count : Int64) : Except Fault Arena :=
  if !present then .error .noBackingBuffer
  else if !Word.isPow2Signed blockSize then .error (.notPowerOfTwo "blockSize" blockSize.toInt)
  else if count ≤ 0 then .error (.blockCountNotPositive count)
  else
    let needed := neededBytesFor blockSize count
    if bufferSize < needed then .error (.bufferTooSmall bufferSize needed)
    else
      let mgmt := managementBlocksFor blockSize count
      if mgmt * blockSize < 0 then .error .runOutOfRange
      else
        .ok { blockSize := blockSize, blockCount := count, managementBlocks := mgmt,
              bufferSize := bufferSize, bufferAlign := bufferAlign,
              bytes := Buffer.zeros bufferSize.toNatClampNeg,
              tableLength := (mgmt * blockSize).toNatClampNeg }

/-- The largest single request the process heap serves: 1 TiB. -/
def heapLimit : Int64 := 1099511627776

/-- An arena whose buffer comes from the process heap: exactly the bytes it needs, aligned to
    the block size but to at least eight. The checks are those of `create`, then that the
    buffer has a valid layout, then that the heap serves it. -/
def createOnHeap (blockSize count : Int64) : Except Fault Arena :=
  if !Word.isPow2Signed blockSize then .error (.notPowerOfTwo "blockSize" blockSize.toInt)
  else if count ≤ 0 then .error (.blockCountNotPositive count)
  else
    match Layout.make (neededBytesFor blockSize count) (max blockSize 8).toUInt64 with
    | .error f => .error (.unaddressable count blockSize f)
    | .ok l =>
      if heapLimit - (l.align.toInt64 - 1) < max l.size 1 then
        .error (.composableArena (.heapLimit l))
      else create true l.size l.align blockSize count

/-! ## Geometry -/

def blockOffset (a : Arena) (b : Int64) : Int64 :=
  (a.managementBlocks + b) * a.blockSize

/-- The block an address falls in: its offset divided by the block size (truncating), less
    the management blocks. -/
def blockIndex (a : Arena) (off : Int64) : Int64 :=
  off / a.blockSize - a.managementBlocks

/-- Blocks needed for `size` bytes: at least one. -/
def blocksFor (a : Arena) (size : Int64) : Int64 :=
  if size = 0 then 1 else Word.divCeil size a.blockSize

/-- The arena owns an address when it lies inside its buffer; a released arena owns nothing. -/
def owns (a : Arena) (addr : Addr) : Bool :=
  match addr with
  | .offset off => !a.released && 0 ≤ off && off < a.bufferSize.toInt
  | _ => false

/-- Block `b` starts at an address aligned to `align`. Once released, the arena has no buffer
    and block addresses are plain offsets from zero. -/
def blockAligned (a : Arena) (b : Int64) (align : UInt64) : Bool :=
  let off := (a.blockOffset b).toInt
  if a.released then ((a.blockOffset b).toUInt64 &&& (align - 1)) == 0
  else Addr.alignedAt off align

def isEmpty (a : Arena) : Bool := a.allocationCount == 0

end Arena

end BlockArena
