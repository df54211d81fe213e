import BlockArena.Fault

/-! # Addresses

An address is either nothing (`null`), the one shared dangling address that every zero-sized
or never-allocated handle resolves to, or a byte offset into the arena of the storage at hand.
The dangling address is aligned to 4096, so it serves any power-of-two alignment up to that:
`checkDanglingAlign` refuses the others.

Arenas are placed at a base address (`Addr.arenaAt`) that is `2^20` modulo `2^21`.
`Addr.position` places every address in the address space of `2^64` bytes, which bounds the
runs that can start there (`Addr.room`, `Addr.roomAt`), and the byte at offset `off` of an arena
is aligned to a mask `m` (an alignment minus one) exactly when the low bits of its position
under `m` are zero (`Addr.alignedAt`).
-/

set_option autoImplicit false

namespace BlockArena

/-- Where a handle or pointer points. -/
inductive Addr where
  | null
  | dangling
  /-- A byte offset into the arena. -/
  | offset (off : Int)
  deriving DecidableEq, Inhabited, Repr

namespace Addr

/-- The largest alignment that the dangling address satisfies. -/
def maxDanglingAlign : UInt64 := 4096

def checkDanglingAlign (align : UInt64) : Except Fault Unit :=
  if !Word.isPow2 align then
    .error (.danglingAlignment (.notPowerOfTwo "alignment" align.toNat))
  else if maxDanglingAlign < align then .error (.danglingTooStrict align)
  else .ok ()

def danglingFor (align : UInt64) : Except Fault Addr :=
  (checkDanglingAlign align).map fun _ => .dangling

/-- The address of the first byte of an arena, `2^40 + 2^20`: `2^20` modulo `2^21`, far below
    the top of the address space. -/
def arenaAt : Nat := 1099512676352

/-- The dangling address, `2^22`: a multiple of `4096` below every arena. -/
def danglingAt : Nat := 4194304

/-- Where an address lies in the address space of `2^64` bytes. -/
def position : Addr → Int
  | .null => 0
  | .dangling => danglingAt
  | .offset off => arenaAt + off

/-- Where the byte `off` past an address lies: its position moved by `off`, wrapping around the
    address space. -/
def positionAt (p : Addr) (off : Int) : Int := (p.position + off) % 18446744073709551616

/-- The arena offset `off` is aligned to `align` at the arena's base address: the mask
    `align - 1` (wrapping) clears every bit of the address of that byte. -/
def alignedAt (off : Int) (align : UInt64) : Bool :=
  Nat.land ((Addr.offset off).positionAt 0).toNat (align - 1).toNat == 0

/-- The bytes above the byte `off` past an address, up to the top of the address space; there
    are none above position `0`. -/
def roomAt (p : Addr) (off : Int) : Int := (18446744073709551616 - p.positionAt off) % 18446744073709551616

/-- The bytes above an address, up to the top of the address space; the null address has none. -/
def room (p : Addr) : Int := p.roomAt 0

end Addr

end BlockArena
