import BlockArena.Addr
import BlockArena.Buffer

/-! # Memory behind addresses

A storage hands out addresses into one buffer of bytes: `Addr.offset off` is byte `off` of it.
The memory around the buffer is memory as well (`Space`): it holds zeros until something is
written there and then keeps what was written, wherever in the address space that is. A storage
whose allocations are not in one buffer, such as one over the process heap, keeps all of them
there. Reads that must be exact (`Memory.read?`) answer nothing unless every byte lies in the
buffer, while moves and fills reach the memory around it too. The dangling address points at
memory that holds no data: it reads as zeros and writes to it are lost. No operation here
changes the buffer's size.

Moves and fills of a storage go through `Memory.move` and `Memory.clear`, which first take
the runs of bytes they touch as runs of the address space (`Memory.checkRun`): a run of no
bytes is no run and is never checked; any other run must have a positive length that fits
above its first byte, or the operation aborts before it changes a byte, also when the run
starts at the null address. A move checks its destination run before its source run. A run
that passes and starts at the null address is then touched where no memory is mapped, so the
operation aborts there (`Memory.checkMapped`).
-/

set_option autoImplicit false

namespace BlockArena

/-- The bytes behind a storage's addresses: its buffer, and the runs of bytes written around
    it, latest first, each at its position relative to the buffer's first byte. -/
structure Space where
  buffer : ByteArray
  around : List (Int × ByteArray) := []

namespace Space

def size (m : Space) : Nat := m.buffer.size

def covers (run : Int × ByteArray) (j : Int) : Bool :=
  run.1 ≤ j && j < run.1 + run.2.size

/-- The byte at position `j`: the buffer's byte inside it; outside it, the byte of the latest
    run written over `j`, and zero where none was. -/
def byteAt (m : Space) (j : Int) : UInt8 :=
  if 0 ≤ j && j < m.size then Buffer.byteAt m.buffer j.toNat
  else
    match m.around.find? (covers · j) with
    | some (start, d) => Buffer.byteAt d (j - start).toNat
    | none => 0

def bytes (m : Space) (start : Int) (n : Nat) : ByteArray :=
  if 0 ≤ start && start + n ≤ m.size then m.buffer.extract start.toNat (start.toNat + n)
  else ⟨(Array.range n).map fun (i : Nat) => m.byteAt (start + i)⟩

def overlaps (a b : Int × ByteArray) : Bool :=
  a.1 < b.1 + b.2.size && b.1 < a.1 + a.2.size

/-- A run written around the buffer changes what is read there unless it is all zeros and
    meets no earlier run. -/
def matters (m : Space) (run : Int × ByteArray) : Bool :=
  run.2.data.any (· != 0) || m.around.any (overlaps run)

/-- Write `data` from position `start`: the part in the buffer into the buffer, and the kept
    parts before and after it onto the runs around it. -/
def put (m : Space) (start : Int) (data : ByteArray) : Space :=
  let size : Int := m.size
  let stop := start + data.size
  let part := fun (lo hi : Int) => data.extract (lo - start).toNat (hi - start).toNat
  let lo := max start 0
  let hi := min stop size
  let buffer := if lo < hi then Buffer.write m.buffer lo.toNat (part lo hi) else m.buffer
  let beforeHi := min stop 0
  let afterLo := max start size
  let runs := (if start < beforeHi then [(start, part start beforeHi)] else []) ++
    (if afterLo < stop then [(afterLo, part afterLo stop)] else [])
  { buffer := buffer, around := runs.filter m.matters ++ m.around }

/-- Set the bytes of `d` at `[lo, hi)`, as far as `d` has them, to zero. -/
def zeroPart (d : ByteArray) (lo hi : Int) : ByteArray :=
  let a := max lo 0
  let b := min hi d.size
  if a < b then Buffer.fill0 d a.toNat (b - a).toNat else d

/-- Set the bytes at positions `[lo, hi)` to zero, in the buffer and in every run around it. -/
def fill0 (m : Space) (lo hi : Int) : Space :=
  { buffer := zeroPart m.buffer lo hi
    around := m.around.map fun (start, d) => (start, zeroPart d (lo - start) (hi - start)) }

end Space

namespace Memory

/-- The `n` bytes from `off` past an address, if they all lie in the buffer. -/
def read? (m : Space) (p : Addr) (off : Int) (n : Nat) : Option ByteArray :=
  match p with
  | .offset base =>
    let start := base + off
    if 0 ≤ start then Buffer.read? m.buffer start.toNat n else none
  | _ => none

/-- The `n` bytes from `off` past an address, in the buffer or around it. -/
def bytesAt (m : Space) (p : Addr) (off : Int) (n : Nat) : ByteArray :=
  match p with
  | .offset base => m.bytes (base + off) n
  | _ => Buffer.zeros n

/-- Write `data` from `off` past an address, in the buffer or around it. -/
def write (m : Space) (p : Addr) (off : Int) (data : ByteArray) : Space :=
  match p with
  | .offset base => m.put (base + off) data
  | _ => m

def zero (m : Space) (p : Addr) (lo hi : Int) : Space :=
  match p with
  | .offset base => m.fill0 (base + lo) (base + hi)
  | _ => m

/-- Copy `n` bytes from `src + srcOff` to `dst + dstOff`, reading all of them before writing
    any; nothing happens when `n` is not positive. -/
def copy (m : Space) (dst : Addr) (dstOff : Int) (src : Addr) (srcOff n : Int) : Space :=
  if n ≤ 0 then m else write m dst dstOff (bytesAt m src srcOff n.toNat)

/-- Check the run of `n` bytes from `off` past `p` that a move or a fill touches. A run of no
    bytes passes; a negative length, or one that does not fit above the first byte, aborts as
    out of range. The first byte is an address moved by an offset, which counts as an address
    even where it is position `0`, so no run here aborts as a run at the null address. -/
def checkRun (p : Addr) (off : Int) (n : Int64) : Except Fault Unit :=
  if n = 0 then .ok ()
  else if n < 0 || p.roomAt off < n.toInt then .error .runOutOfRange
  else .ok ()

/-- A run of `n` bytes that passed `checkRun` is touched: no bytes touch nothing, and bytes
    past the null address lie where nothing is mapped. -/
def checkMapped (p : Addr) (n : Int64) : Except Fault Unit :=
  if n ≠ 0 && p = .null then .error .nullAccess else .ok ()

/-- Move `n` bytes from `src + srcOff` to `dst + dstOff` once both runs pass `checkRun`, the
    destination first, and both lie where memory is mapped. -/
def move (m : Space) (dst : Addr) (dstOff : Int) (src : Addr) (srcOff : Int) (n : Int64) :
    Except Fault Space := do
  checkRun dst dstOff n
  checkRun src srcOff n
  checkMapped dst n
  checkMapped src n
  pure (copy m dst dstOff src srcOff n.toInt)

/-- Set the bytes `[lo, hi)` past an address to zero. Nothing happens when `hi ≤ lo`; otherwise
    the run from `lo` of `hi - lo` bytes, a difference that wraps, must pass `checkRun`. -/
def clear (m : Space) (p : Addr) (lo hi : Int64) : Except Fault Space :=
  if hi ≤ lo then .ok m
  else do
    checkRun p lo.toInt (hi - lo)
    checkMapped p (hi - lo)
    pure (zero m p lo.toInt hi.toInt)

end Memory

end BlockArena
