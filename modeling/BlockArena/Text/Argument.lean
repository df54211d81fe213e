/-! # Arguments in error texts

An error text is built from a format and its arguments, and an argument that is not known to
be safe to show stands between the marks `‹` (U+2039) and `›` (U+203A) while the text is
built; the marks are removed from the finished text. So that an argument cannot end its own
span, each mark inside it is written `?`, and spaces and newlines at its end are dropped.
`escapeArgument` writes an argument as it appears in the finished text.
-/

set_option autoImplicit false

namespace BlockArena

namespace Text

/-- The marks that open and close an argument that is not known to be safe. -/
def isArgumentMark (c : Char) : Bool := c = '‹' || c = '›'

/-- Spaces and newlines are dropped from the end of an argument. -/
def isTrailingBlank (c : Char) : Bool := c = ' ' || c = '\n'

/-- An argument as it appears in a finished error text: its trailing spaces and newlines
    dropped, and each mark in it written `?`. -/
def escapeArgument (s : String) : String :=
  let kept := (s.toList.reverse.dropWhile isTrailingBlank).reverse
  String.ofList (kept.map fun c => if isArgumentMark c then '?' else c)

end Text

end BlockArena
