import BlockArena.Storage.Block

/-! # Creating a block storage

A block storage takes its arena from a parent allocator. Block size `0` means `64` and block
count `0` means `1024`. The checks run in this order: the block size is a power of two, the
count is not negative, the arena has a valid layout (its size aligned to the block size, but
to at least eight), and the parent serves it. The parent may refuse, may have a limit, or may
hand out no buffer at all; the arena then refuses to be built and its (empty) buffer goes back
to the parent. The parent is any allocator (`Parent`); the one the protocol drives is
`Parent.pinned`.

A failed creation reports how many buffers went back to the parent.
-/

set_option autoImplicit false

namespace BlockArena

/-- The allocator a block storage takes its arena from, read by what it answers when asked for
    the arena's layout: a buffer (`true`), no buffer at all (`false`), or a fault. -/
structure Parent where
  serve : Layout → Except Fault Bool

namespace Parent

/-- The largest arena the protocol's parent serves, in bytes. -/
def pinnedLimit : Int64 := 1048576

/-- The parent the protocol drives: it refuses every request when told to, answers every request
    with no buffer when told to, and otherwise serves arenas of up to `pinnedLimit` bytes. -/
def pinned (refuses givesNoBuffer : Bool) : Parent where
  serve l :=
    if refuses then .error .parentRefused
    else if givesNoBuffer then .ok false
    else if pinnedLimit < l.size then .error .parentLimit
    else .ok true

/-- Every buffer the parent hands out holds at most `n` bytes. -/
def ServesAtMost (p : Parent) (n : Int64) : Prop :=
  ∀ l, p.serve l = .ok true → l.size.toInt ≤ n.toInt

end Parent

namespace BlockStore

def defaultBlockSize : Int64 := 64

def defaultBlockCount : Int64 := 1024

/-- A block storage over an arena from `parent`, or the fault and the number of buffers handed
    back to the parent. -/
def create (parent : Parent) (blockSize blockCount : Int64) (flags : Int32) :
    Except (Fault × Nat) BlockStore :=
  let bs := if blockSize = 0 then defaultBlockSize else blockSize
  let count := if blockCount = 0 then defaultBlockCount else blockCount
  if !Word.isPow2Signed bs then .error (.notPowerOfTwo "BlockSize" bs.toInt, 0)
  else if count < 0 then .error (.blockCountNegative count, 0)
  else
    match Layout.make (Arena.neededBytesFor bs count) (max bs 8).toUInt64 with
    | .error f => .error (.unaddressable count bs f, 0)
    | .ok l =>
      match parent.serve l with
      | .error f => .error (.arenaUnavailable f, 0)
      | .ok present =>
        match Arena.create present l.size l.align bs count with
        | .error f => .error (f, 1)
        | .ok a => .ok { arena := a, flags := flags }

end BlockStore

end BlockArena
