import BlockArena.Session.Respond
import BlockArena.Wire.Answer
import BlockArena.Wire.Print
import BlockArena.Wire.Request

/-! # The line protocol

A request is one line of JSON text and its answer is one line of JSON text. `answerLine` reads
the request, answers it and writes the answer; a line that is not JSON is answered as a misuse.
-/

set_option autoImplicit false

namespace BlockArena

namespace Wire

def notJson : Value :=
  .obj [("error", .str "DriverError"), ("message", .str "request is not a JSON value")]

def answerLine (line : String) : String :=
  match Value.parse? line with
  | some v => (response (Session.respond (request v))).render
  | none => notJson.render

end Wire

end BlockArena
