import BlockArena.Session.Answer
import BlockArena.Wire.Parse

/-! # Writing answers

`Wire.response` writes a response as a JSON value. A reply is an object whose members depend
on its kind; a failure is `{"error": KIND, "message": TEXT}`, with `"panic": true` when the
fault ends its operation abruptly, and KIND naming the class of the fault (or `DriverError` for
a misuse). Steps answer in a list under `"results"`; a storage that could not be built also
says how many buffers went back to its parent.
-/

set_option autoImplicit false

namespace BlockArena

namespace Wire

open Session

def layoutValue (l : Layout) : Value := .arr [.ofInt l.size.toInt, .ofInt l.align.toNat]

def tokenValue : Token → Value
  | .num n => .ofInt n
  | .word w => .str w
  | .none => .null

def statsMembers (s : Stats) : List (String × Value) :=
  [("arena_count", .ofInt s.arenaCount.toInt), ("allocation_count", .ofInt s.allocationCount.toInt),
   ("arena_bytes", .ofInt s.arenaBytes.toInt), ("allocation_bytes", .ofInt s.allocationBytes.toInt),
   ("free_bytes", .ofInt s.freeBytes.toInt)]

def detailedValue (d : DetailedStats) : Value :=
  .obj (statsMembers d.base ++
    [("free_run_count", .ofInt d.freeRunCount.toInt),
     ("free_run_bytes_min", .ofInt d.freeRunMin.toInt),
     ("free_run_bytes_max", .ofInt d.freeRunMax.toInt)])

/-- The answer of a scrape: the descriptions, then the readings. -/
def scrapeValue (s : Metrics.Scrape) : Value :=
  .obj [("descs", .arr (s.descs.map fun d => .str d.render)),
        ("metrics", .arr (s.samples.map fun m =>
          .obj [("desc", .str m.desc.render), ("labels", .obj [("name", .str m.desc.label)]),
                ("value", .ofInt m.value)]))]

/-- A member that is there only when its value is. -/
def optional (k : String) : Option Value → List (String × Value)
  | some x => [(k, x)]
  | none => []

def textOrNull : Option String → Value
  | some s => .str s
  | none => .null

def replyValue : Reply → Value
  | .empty => .obj []
  | .ok => .obj [("ok", .bool true)]
  | .value v => .obj [("value", .ofInt v)]
  | .truth b => .obj [("value", .bool b)]
  | .layout l text w =>
    .obj ([("layout", layoutValue l), ("string", .str text)] ++
      optional "with_size" (w.map layoutValue))
  | .arrayLayout l e => .obj [("layout", layoutValue l), ("elem", layoutValue e)]
  | .size n => .obj [("size", .ofInt n)]
  | .region r fits =>
    .obj [("bytes", .arr [.ofInt r.src.toInt, .ofInt r.dst.toInt, .ofInt r.size.toInt]),
          ("fits", textOrNull fits)]
  | .danglingPointer => .obj [("dangling", .bool true), ("nil", .bool false)]
  | .text s => .obj [("string", .str s)]
  | .failureText s => .obj [("message", .str s), ("is_alloc_error", .bool true)]
  | .stats s => .obj (statsMembers s)
  | .detailed d => detailedValue d
  | .placed o s => .obj [("offset", .ofInt o), ("size", .ofInt s)]
  | .grown s ok => .obj [("size", .ofInt s), ("ok", .bool ok)]
  | .owns b => .obj [("owns", .bool b)]
  | .emptiness b => .obj [("empty", .bool b)]
  | .map text => .obj [("map", (Value.parse? text).getD (.str text))]
  | .released n => .obj [("parent_deallocs", .ofInt n)]
  | .id n => .obj [("id", .ofInt n)]
  | .data d => .obj [("data", textOrNull d)]
  | .scrape s => scrapeValue s
  | .heapAlloc i s => .obj [("id", .ofInt i), ("nil", .bool false), ("size", .ofInt s)]
  | .handleSize h s => .obj [("handle", tokenValue h), ("size", .ofInt s)]
  | .handle h => .obj [("handle", tokenValue h)]
  | .ptr p => .obj [("ptr", tokenValue p)]
  | .ptrSize p s => .obj [("ptr", tokenValue p), ("size", .ofInt s)]
  | .epoch n => .obj [("epoch", .ofInt n)]
  | .stable b => .obj [("stable", .bool b)]
  | .compaction b a => .obj [("bytes_moved", .ofInt b), ("allocations_moved", .ofInt a)]
  | .length n => .obj [("len", .ofInt n)]
  | .info kind elem h len =>
    .obj ([("kind", .str kind), ("elem", .str elem)] ++
      optional "handle" (h.map tokenValue) ++ optional "len" (len.map Value.ofInt))
  | .raw h len => .obj ([("handle", tokenValue h)] ++ optional "len" (len.map Value.ofInt))
  | .resolved p len d =>
    .obj ([("ptr", tokenValue p)] ++ optional "len" (len.map Value.ofInt) ++
      optional "data" (d.map textOrNull))
  | .valid b => .obj [("valid", .bool b)]

def kindName : FaultKind → String
  | .allocationAborted => "FailureError"
  | .consumedHandle => "ConsumedHandleError"
  | .staleReference => "StaleReferenceError"
  | .allocation => "AllocError"
  | .powerOfTwo => "PowerOfTwoError"
  | .runtime => "RuntimeError"
  | .error => "Error"
  | .abort => "Panic"

def failureMembers : Failure → List (String × Value)
  | .misuse m => [("error", .str "DriverError"), ("message", .str m)]
  | .fault f =>
    [("error", .str (kindName f.kind)), ("message", .str f.message)] ++
      (if f.aborts then [("panic", .bool true)] else [])

def answerValue : Answer → Value
  | .ok r => replyValue r
  | .error e => .obj (failureMembers e)

def response : Response → Value
  | .single a => answerValue a
  | .results rs => .obj [("results", .arr (rs.map answerValue))]
  | .refused f n => .obj (failureMembers (.fault f) ++ [("parent_deallocs", .ofInt n)])

end Wire

end BlockArena
