/-! # Wire values

Requests and answers travel as JSON texts, one per line. A `Value` is one JSON value as it was
written: a number keeps its literal text, so that a reader can tell `2` from `2.0` and from
`2e0`, and an object keeps its members in the order they came. Looking a member up takes the
last member of that name, so a later member hides an earlier one.

`Value.plain` is the plain rendering that the request checks quote back in their complaints:
strings bare, `null` as `<nil>`, arrays as `[a b]`, and objects as `map[k:v]` with one member
per name in increasing order of names.
-/

set_option autoImplicit false

namespace BlockArena

namespace Wire

/-- One JSON value, numbers as written. -/
inductive Value where
  | null
  | bool (b : Bool)
  /-- A number, by its literal text. -/
  | num (text : String)
  | str (s : String)
  | arr (items : List Value)
  /-- An object, by its members in the order written. -/
  | obj (members : List (String × Value))
  deriving Inhabited, Repr

namespace Value

def ofInt (i : Int) : Value := .num (toString i)

/-- The member named `k` of an object; the last one when there are several. -/
def field? (v : Value) (k : String) : Option Value :=
  match v with
  | .obj ms => (ms.reverse.find? fun m => m.1 == k).map (·.2)
  | _ => none

/-- One rendered member per name, the last one written, in increasing order of names. -/
def distinctShown (ms : List (String × String)) : List (String × String) :=
  let last := ms.reverse.foldl
    (fun acc m => if acc.any (fun n => n.1 == m.1) then acc else m :: acc) []
  last.mergeSort fun a b => a.1 ≤ b.1

mutual

/-- The plain rendering of a value, as complaints quote it. -/
def plain : Value → String
  | .null => "<nil>"
  | .bool b => if b then "true" else "false"
  | .num t => t
  | .str s => s
  | .arr items => "[" ++ " ".intercalate (plainItems items) ++ "]"
  | .obj ms =>
    let parts := (distinctShown (plainMembers ms)).map fun m => m.1 ++ ":" ++ m.2
    "map[" ++ " ".intercalate parts ++ "]"

def plainItems : List Value → List String
  | [] => []
  | x :: xs => plain x :: plainItems xs

def plainMembers : List (String × Value) → List (String × String)
  | [] => []
  | (k, v) :: ms => (k, plain v) :: plainMembers ms

end

end Value

end Wire

end BlockArena
