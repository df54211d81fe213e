import BlockArena.Text.Hex
import BlockArena.Wire.Value

/-! # Writing JSON text

`Value.render` writes a value as compact JSON: no blanks, members in the order they are held,
numbers by their text. Inside strings the quote and the backslash are escaped with a
backslash, line feed, carriage return and tab by their letters, the other control characters
below U+0020 as `\u00XX`, and every other character stands as it is.
-/

set_option autoImplicit false

namespace BlockArena

namespace Wire

def escapeChar (c : Char) : List Char :=
  if c = '"' then ['\\', '"']
  else if c = '\\' then ['\\', '\\']
  else if c = '\n' then ['\\', 'n']
  else if c = '\r' then ['\\', 'r']
  else if c = '\t' then ['\\', 't']
  else if c.toNat < 0x20 then
    ['\\', 'u', '0', '0', Text.nibbleChar (c.toNat / 16), Text.nibbleChar (c.toNat % 16)]
  else [c]

def quoteString (s : String) : String :=
  String.ofList ('"' :: s.toList.flatMap escapeChar ++ ['"'])

namespace Value

mutual

def render : Value → String
  | .null => "null"
  | .bool b => if b then "true" else "false"
  | .num t => t
  | .str s => quoteString s
  | .arr items => "[" ++ ",".intercalate (renderItems items) ++ "]"
  | .obj ms => "\x7b" ++ ",".intercalate (renderMembers ms) ++ "\x7d"

def renderItems : List Value → List String
  | [] => []
  | x :: xs => render x :: renderItems xs

/-- The texts of the members of an object, each its name, a colon and its value. -/
def renderMembers : List (String × Value) → List String
  | [] => []
  | (k, v) :: ms => (quoteString k ++ ":" ++ render v) :: renderMembers ms

end

end Value

end Wire

end BlockArena
