import BlockArena.Text.Quoted

/-! # Misread requests

Why a member of a request could not be read, and the text that says so. A misread answers the
step (or the request) it occurs in as a misuse of the request language.

* A value that must be an integer is something else: `expected an integer, got V`, with the
  value in its plain rendering (`Value.plain`).
* A number does not fit the word it is read into: `N is not a 64-bit signed integer` (or
  `unsigned`), with the number as written.
* A named member carries its name in front: `field "count": ...`.
* A member is not an array of the expected shape, or not hex text.
* A handle member is not of a form that names a handle of the storage at hand:
  `bad alloc storage handle V`.
* A value does not have the size of its element type: `value must be N bytes`, naming the
  member without quotes.
-/

set_option autoImplicit false

namespace BlockArena

namespace Wire

/-- Why a member of a request could not be read. -/
inductive Misread where
  /-- The value, rendered plainly, is not a number. -/
  | notInteger (shown : String)
  /-- The number, as written, is not a word of the given signedness. -/
  | notWord (text : String) (signed : Bool)
  /-- The member `field` could not be read. -/
  | inField (field : String) (why : Misread)
  /-- The member `field` is not an array of the form `shape`. -/
  | notShape (field shape : String)
  /-- The member `field` is not hex text. -/
  | notHex (field : String)
  /-- The member `field` does not hold `size` bytes. -/
  | wrongSize (field : String) (size : Int)
  /-- The value, rendered plainly, is of no form that names a handle of a `storage` storage. -/
  | badHandle (storage shown : String)
  deriving Inhabited, Repr

namespace Misread

def message : Misread → String
  | .notInteger shown => "expected an integer, got " ++ shown
  | .notWord text signed =>
    text ++ " is not a 64-bit " ++ (if signed then "signed" else "unsigned") ++ " integer"
  | .inField field why => "field " ++ Text.quote field ++ ": " ++ why.message
  | .notShape field shape => "field " ++ Text.quote field ++ " must be " ++ shape
  | .notHex field => "field " ++ Text.quote field ++ " is not a hex string"
  | .wrongSize field size => field ++ " must be " ++ toString size ++ " bytes"
  | .badHandle storage shown => "bad " ++ storage ++ " storage handle " ++ shown

end Misread

end Wire

end BlockArena
