/-! # Buffers

A buffer is a fixed-size array of bytes. Reads outside it return nothing, and writes, moves
and fills change only the bytes that lie inside it, so no operation here changes its size.
A move copies as if through a temporary, so overlapping source and destination are fine.
-/

set_option autoImplicit false

namespace BlockArena

namespace Buffer

def zeros (n : Nat) : ByteArray := ⟨Array.replicate n 0⟩

/-- The byte at `i`, zero outside the buffer. -/
def byteAt (b : ByteArray) (i : Nat) : UInt8 := if h : i < b.size then b[i] else 0

/-- The `n` bytes from `off`, if they all lie inside the buffer. -/
def read? (b : ByteArray) (off n : Nat) : Option ByteArray :=
  if off + n ≤ b.size then some (b.extract off (off + n)) else none

/-- Replace byte `i` by `v`; nothing changes outside the buffer. -/
def setByte (b : ByteArray) (i : Nat) (v : UInt8) : ByteArray :=
  if h : i < b.size then b.set i v h else b

/-- Write `data` from `off` on; bytes that would land past the end are dropped. -/
def write (b : ByteArray) (off : Nat) (data : ByteArray) : ByteArray :=
  if off < b.size then
    let n := min data.size (b.size - off)
    data.copySlice 0 b off n
  else b

/-- Copy `n` bytes from `src` to `dst`, reading all of them before writing any. -/
def move (b : ByteArray) (dst src n : Nat) : ByteArray :=
  write b dst (b.extract src (src + n))

def fill0 (b : ByteArray) (off n : Nat) : ByteArray :=
  write b off (zeros n)

end Buffer

end BlockArena
