import BlockArena.Layout
import BlockArena.Region
import BlockArena.Text.Decimal
import BlockArena.Text.Hex
import BlockArena.Wire.Misread
import BlockArena.Wire.Value

/-! # Reading the members of a request

How a request's members are read, member by member:

* Text, flags and lists read as empty, false or empty when the member is missing or of another
  type.
* A named number member (`Value.signed`, `Value.unsigned`) reads as `0` when it is missing or
  not a number; a number that is not a word of its kind is refused, naming the member.
* A bare value that must be a number (an item of a list, a handle, an optional member that is
  present) is refused when it is anything else, even `null`, and refused when it does not fit
  its word; these refusals name no member.
* Layouts and regions are arrays of two and three numbers. A missing or `null` one reads as
  all zeros; any other value that is not an array of that length is refused.
* Hex members read as the bytes they stand for; text that is not hex is refused.
-/

set_option autoImplicit false

namespace BlockArena

namespace Wire

namespace Value

/-- A text member; empty when missing or not text. -/
def text (v : Value) (k : String) : String :=
  match v.field? k with
  | some (.str s) => s
  | _ => ""

/-- A flag member; false when missing or not a flag. -/
def flag (v : Value) (k : String) : Bool :=
  match v.field? k with
  | some (.bool b) => b
  | _ => false

/-- The items of a list member; none when missing or not a list. -/
def items (v : Value) (k : String) : List Value :=
  match v.field? k with
  | some (.arr xs) => xs
  | _ => []

/-- Whether a member is present, `null` included. -/
def has (v : Value) (k : String) : Bool := (v.field? k).isSome

def toSigned : Value → Except Misread Int64
  | .num t =>
    match Text.signedWord? t with
    | some i => .ok i
    | none => .error (.notWord t true)
  | x => .error (.notInteger x.plain)

def toUnsigned : Value → Except Misread UInt64
  | .num t =>
    match Text.unsignedWord? t with
    | some i => .ok i
    | none => .error (.notWord t false)
  | x => .error (.notInteger x.plain)

/-- A signed member: `0` unless it is a number, which must be a signed word. -/
def signed (v : Value) (k : String) : Except Misread Int64 :=
  match v.field? k with
  | some (.num t) =>
    match Text.signedWord? t with
    | some i => .ok i
    | none => .error (.inField k (.notWord t true))
  | _ => .ok 0

/-- An unsigned member: `0` unless it is a number, which must be an unsigned word. -/
def unsigned (v : Value) (k : String) : Except Misread UInt64 :=
  match v.field? k with
  | some (.num t) =>
    match Text.unsignedWord? t with
    | some i => .ok i
    | none => .error (.inField k (.notWord t false))
  | _ => .ok 0

/-- An optional signed member: nothing when missing; when present it must be a signed word. -/
def signed? (v : Value) (k : String) : Except Misread (Option Int64) :=
  match v.field? k with
  | none => .ok none
  | some x => some <$> toSigned x

def layout (v : Value) (k : String) : Except Misread Layout :=
  match v.field? k with
  | none | some .null => .ok ⟨0, 0⟩
  | some (.arr [s, a]) => do pure ⟨← toSigned s, ← toUnsigned a⟩
  | some _ => .error (.notShape k "[size, align]")

def region (v : Value) (k : String) : Except Misread Region :=
  match v.field? k with
  | none | some .null => .ok {}
  | some (.arr [s, d, z]) => do pure ⟨← toSigned s, ← toSigned d, ← toSigned z⟩
  | some _ => .error (.notShape k "[src, dst, size]")

def bytes (v : Value) (k : String) : Except Misread ByteArray :=
  match Text.bytesOfHex? (v.text k) with
  | some b => .ok b
  | none => .error (.notHex k)

end Value

end Wire

end BlockArena
