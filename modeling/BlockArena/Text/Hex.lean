/-! # Bytes as hex text

Byte strings travel as lowercase hex, two digits a byte, first byte first. `hexOfBytes` writes
them and `bytesOfHex?` reads them back, accepting either case and refusing an odd length or a
character that is not a hex digit.
-/

set_option autoImplicit false

namespace BlockArena

namespace Text

def nibbleChar (n : Nat) : Char :=
  if n < 10 then Char.ofNat (0x30 + n) else Char.ofNat (0x61 + n - 10)

def byteHex (b : UInt8) : List Char :=
  [nibbleChar (b.toNat / 16), nibbleChar (b.toNat % 16)]

def hexOfBytes (bs : ByteArray) : String :=
  String.ofList (bs.toList.flatMap byteHex)

def nibbleOf? (c : Char) : Option Nat :=
  if '0' ≤ c && c ≤ '9' then some (c.toNat - 0x30)
  else if 'a' ≤ c && c ≤ 'f' then some (c.toNat - 0x61 + 10)
  else if 'A' ≤ c && c ≤ 'F' then some (c.toNat - 0x41 + 10)
  else none

/-- Read pairs of hex digits into bytes, most significant digit first. -/
def bytesOfDigits? : List Char → Option (List UInt8)
  | [] => some []
  | [_] => none
  | hi :: lo :: rest => do
    let h ← nibbleOf? hi
    let l ← nibbleOf? lo
    let tail ← bytesOfDigits? rest
    pure ((16 * h + l).toUInt8 :: tail)

def bytesOfHex? (s : String) : Option ByteArray :=
  (bytesOfDigits? s.toList).map fun bs => ByteArray.mk bs.toArray

end Text

end BlockArena
