import BlockArena.Text.Hex
import BlockArena.Text.Printable

/-! # Quoted text

A quoted string is the text between double quotes in which the quote and the backslash are
escaped with a backslash, printable characters stand as they are, the seven control characters
with a letter escape use it (`\a \b \f \n \r \t \v`), other characters below U+0020 and U+007F
become `\xHH`, and every other character becomes `\uHHHH` or, above U+FFFF, `\UHHHHHHHH`.
Hex digits are lowercase.
-/

set_option autoImplicit false

namespace BlockArena

namespace Text

/-- The `width` lowest hex digits of `n`, most significant first. -/
def hexDigits (n : Nat) : Nat → List Char
  | 0 => []
  | w + 1 => hexDigits (n / 16) w ++ [nibbleChar (n % 16)]

def escapeChar (c : Char) : List Char :=
  if c = '"' || c = '\\' then ['\\', c]
  else if isPrintable c then [c]
  else
    let n := c.toNat
    if n = 7 then ['\\', 'a']
    else if n = 8 then ['\\', 'b']
    else if n = 12 then ['\\', 'f']
    else if n = 10 then ['\\', 'n']
    else if n = 13 then ['\\', 'r']
    else if n = 9 then ['\\', 't']
    else if n = 11 then ['\\', 'v']
    else if n < 0x20 || n = 0x7F then ['\\', 'x'] ++ hexDigits n 2
    else if n < 0x10000 then ['\\', 'u'] ++ hexDigits n 4
    else ['\\', 'U'] ++ hexDigits n 8

/-- The quoted form of a string: a double quote, each character escaped, a double quote. -/
def quote (s : String) : String :=
  String.ofList ('"' :: s.toList.flatMap escapeChar ++ ['"'])

end Text

end BlockArena
