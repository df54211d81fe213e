/-! # Decimal words

Reading a 64-bit word from decimal text. A signed word is an optional sign (`+` or `-`)
followed by at least one decimal digit, and its value must lie in `[-2^63, 2^63)`. An unsigned
word is digits only, with no sign, and its value must lie below `2^64`. Anything else (a point,
an exponent, blanks, an empty text) is refused.
-/

set_option autoImplicit false

namespace BlockArena

namespace Text

def decimalValue? (cs : List Char) : Option Nat :=
  if cs.isEmpty || !cs.all Char.isDigit then none
  else some (cs.foldl (fun n c => 10 * n + (c.toNat - 0x30)) 0)

def signedWord? (s : String) : Option Int64 :=
  match s.toList with
  | '-' :: ds => (decimalValue? ds).bind fun n =>
    if n ≤ 9223372036854775808 then some (Int64.ofInt (-(n : Int))) else none
  | '+' :: ds => (decimalValue? ds).bind fun n =>
    if n < 9223372036854775808 then some (Int64.ofInt n) else none
  | ds => (decimalValue? ds).bind fun n =>
    if n < 9223372036854775808 then some (Int64.ofInt n) else none

def unsignedWord? (s : String) : Option UInt64 :=
  (decimalValue? s.toList).bind fun n => if n < 18446744073709551616 then some (UInt64.ofNat n) else none

end Text

end BlockArena
