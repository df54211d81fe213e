import BlockArena.Wire.Value

/-! # Reading JSON text

`Value.parse? text` reads one JSON value (RFC 8259), with blanks around it, from a whole text,
or gives nothing when the text is not one JSON value.

* A number must have the JSON form, `-?(0|[1-9][0-9]*)(.[0-9]+)?([eE][+-]?[0-9]+)?`, and keeps
  its text.
* A string takes the escapes `\" \\ \/ \b \f \n \r \t` and `\uXXXX`. A `\u` escape of a high
  surrogate that is followed by a `\u` escape of a low surrogate stands for the one character
  the pair encodes; every other surrogate escape stands for U+FFFD. A raw control character
  inside a string is refused.
* An object may name a member twice; both are kept, and `Value.field?` finds the later one.

The readers of values, items and members call each other with a fuel argument that drops by one
on every call. Every call but the first follows a character it consumed, so fuel of twice the
length of the text, plus two, always suffices; `Value.parse?` gives that much.
-/

set_option autoImplicit false

namespace BlockArena

namespace Wire

namespace Parse

/-- JSON blanks: space, tab, line feed and carriage return. -/
def isBlank (c : Char) : Bool := c = ' ' || c = '\t' || c = '\n' || c = '\r'

def skipBlanks (cs : List Char) : List Char := cs.dropWhile isBlank

def isNumberChar (c : Char) : Bool :=
  c.isDigit || c = '-' || c = '+' || c = '.' || c = 'e' || c = 'E'

/-- At least one digit, and nothing else. -/
def allDigits (cs : List Char) : Bool := !cs.isEmpty && cs.all Char.isDigit

/-- The exponent part after `e` or `E`: an optional sign, then digits. -/
def isExponent : List Char → Bool
  | '+' :: ds => allDigits ds
  | '-' :: ds => allDigits ds
  | ds => allDigits ds

/-- What may follow the integer part: a fraction, an exponent, both in that order, or
    nothing. -/
def isTail (cs : List Char) : Bool :=
  match cs with
  | [] => true
  | '.' :: rest =>
    let frac := rest.takeWhile Char.isDigit
    let after := rest.dropWhile Char.isDigit
    !frac.isEmpty &&
      match after with
      | [] => true
      | e :: exp => (e = 'e' || e = 'E') && isExponent exp
  | e :: exp => (e = 'e' || e = 'E') && isExponent exp

/-- The text of a JSON number: an optional minus, then `0` or a digit run that does not start
    with `0`, then the tail. -/
def isNumberText (cs : List Char) : Bool :=
  let unsigned := match cs with
    | '-' :: rest => rest
    | _ => cs
  match unsigned with
  | '0' :: rest => isTail rest
  | c :: rest =>
    c.isDigit && isTail (rest.dropWhile Char.isDigit)
  | [] => false

def hexDigit? (c : Char) : Option Nat :=
  if '0' ≤ c && c ≤ '9' then some (c.toNat - 0x30)
  else if 'a' ≤ c && c ≤ 'f' then some (c.toNat - 0x61 + 10)
  else if 'A' ≤ c && c ≤ 'F' then some (c.toNat - 0x41 + 10)
  else none

def unit? (a b c d : Char) : Option Nat := do
  pure (((← hexDigit? a) * 16 + (← hexDigit? b)) * 256 + (← hexDigit? c) * 16 + (← hexDigit? d))

/-- High surrogates, which open a pair. -/
def isHigh (u : Nat) : Bool := 0xD800 ≤ u && u < 0xDC00

/-- Low surrogates, which close a pair. -/
def isLow (u : Nat) : Bool := 0xDC00 ≤ u && u < 0xE000

def ofPair (hi lo : Nat) : Char := Char.ofNat (0x10000 + (hi - 0xD800) * 0x400 + (lo - 0xDC00))

/-- The character a single escape stands for: itself, or U+FFFD for a surrogate. -/
def ofUnit (u : Nat) : Char := if isHigh u || isLow u then Char.ofNat 0xFFFD else Char.ofNat u

def escaped? : Char → Option Char
  | '"' => some '"'
  | '\\' => some '\\'
  | '/' => some '/'
  | 'b' => some (Char.ofNat 8)
  | 'f' => some (Char.ofNat 12)
  | 'n' => some '\n'
  | 'r' => some '\r'
  | 't' => some '\t'
  | _ => none

/-- The rest of a string after its opening quote: its characters (reversed into `acc`) up to
    the closing quote, and the text after that. -/
def readString : List Char → List Char → Option (String × List Char)
  | [], _ => none
  | '"' :: rest, acc => some (String.ofList acc.reverse, rest)
  | '\\' :: 'u' :: a :: b :: c :: d :: '\\' :: 'u' :: e :: f :: g :: h :: rest, acc =>
    match unit? a b c d, unit? e f g h with
    | some u, some l =>
      if isHigh u && isLow l then readString rest (ofPair u l :: acc)
      else readString ('\\' :: 'u' :: e :: f :: g :: h :: rest) (ofUnit u :: acc)
    | some u, none => readString ('\\' :: 'u' :: e :: f :: g :: h :: rest) (ofUnit u :: acc)
    | none, _ => none
  | '\\' :: 'u' :: a :: b :: c :: d :: rest, acc =>
    match unit? a b c d with
    | some u => readString rest (ofUnit u :: acc)
    | none => none
  | '\\' :: c :: rest, acc =>
    match escaped? c with
    | some e => readString rest (e :: acc)
    | none => none
  | c :: rest, acc => if c.toNat < 0x20 then none else readString rest (c :: acc)
termination_by cs => cs.length

def readNumber (cs : List Char) : Option (Value × List Char) :=
  let text := cs.takeWhile isNumberChar
  if isNumberText text then some (.num (String.ofList text), cs.dropWhile isNumberChar)
  else none

mutual

def readValue : Nat → List Char → Option (Value × List Char)
  | 0, _ => none
  | fuel + 1, cs =>
    match skipBlanks cs with
    | 'n' :: 'u' :: 'l' :: 'l' :: rest => some (.null, rest)
    | 't' :: 'r' :: 'u' :: 'e' :: rest => some (.bool true, rest)
    | 'f' :: 'a' :: 'l' :: 's' :: 'e' :: rest => some (.bool false, rest)
    | '"' :: rest => (readString rest []).map fun p => (.str p.1, p.2)
    | '[' :: rest =>
      match skipBlanks rest with
      | ']' :: after => some (.arr [], after)
      | _ => readItems fuel rest []
    | '{' :: rest =>
      match skipBlanks rest with
      | '}' :: after => some (.obj [], after)
      | _ => readMembers fuel rest []
    | c :: rest => if c = '-' || c.isDigit then readNumber (c :: rest) else none
    | [] => none

/-- The items of an array after its opening bracket or a comma; `acc` holds the items read
    so far, last first. -/
def readItems : Nat → List Char → List Value → Option (Value × List Char)
  | 0, _, _ => none
  | fuel + 1, cs, acc =>
    match readValue fuel cs with
    | none => none
    | some (v, rest) =>
      match skipBlanks rest with
      | ',' :: after => readItems fuel after (v :: acc)
      | ']' :: after => some (.arr (v :: acc).reverse, after)
      | _ => none

/-- The members of an object after its opening brace or a comma; `acc` holds the members read
    so far, last first. -/
def readMembers : Nat → List Char → List (String × Value) → Option (Value × List Char)
  | 0, _, _ => none
  | fuel + 1, cs, acc =>
    match skipBlanks cs with
    | '"' :: rest =>
      match readString rest [] with
      | none => none
      | some (k, afterKey) =>
        match skipBlanks afterKey with
        | ':' :: afterColon =>
          match readValue fuel afterColon with
          | none => none
          | some (v, afterValue) =>
            match skipBlanks afterValue with
            | ',' :: after => readMembers fuel after ((k, v) :: acc)
            | '}' :: after => some (.obj ((k, v) :: acc).reverse, after)
            | _ => none
        | _ => none
    | _ => none

end

end Parse

/-- The one JSON value a text holds, blanks around it allowed. -/
def Value.parse? (text : String) : Option Value :=
  let cs := text.toList
  match Parse.readValue (2 * cs.length + 2) cs with
  | some (v, rest) => if Parse.skipBlanks rest = [] then some v else none
  | none => none

end Wire

end BlockArena
