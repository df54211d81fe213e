import BlockArena.Arena.Basic
import BlockArena.Flags
import BlockArena.Session.Answer
import BlockArena.Session.Request

/-! # One-question requests

Answers to the requests that build nothing: the word rules, layouts and arrays of elements,
arena sizing, copy regions, the dangling address, flag texts, and the text of an aborted
allocation. The detailed-statistics exercise folds its steps into an object that starts
cleared.
-/

set_option autoImplicit false

namespace BlockArena

namespace Session

/-- Apply one detailed-statistics step; a step of no known name changes nothing. -/
def StatsStep.apply (s : DetailedStats) : StatsStep → DetailedStats
  | .freeRun bytes => s.addFreeRun bytes
  | .add base runs => s.merge (DetailedStats.ofRuns base runs)
  | .clear => DetailedStats.cleared
  | .clearBase => s.clearBase
  | .unknown _ => s

/-- Fold the detailed-statistics steps into a cleared object. -/
def foldStats (steps : List StatsStep) : DetailedStats :=
  steps.foldl StatsStep.apply DetailedStats.cleared

def WordCall.answer : WordCall → Answer
  | .checkPow2 a name =>
    if Word.isPow2Signed a then .ok .ok else failWith (.notPowerOfTwo name a.toInt)
  | .checkPow2Word a name =>
    if Word.isPow2 a then .ok .ok else failWith (.notPowerOfTwo name a.toNat)
  | .alignUp a b => .ok (.value (Word.alignUp a b).toInt)
  | .divCeil a b =>
    if b = 0 then failWith .divideByZero else .ok (.value (Word.divCeil a b).toInt)
  | .mulOverflows a b => .ok (.truth (Word.mulOverflows a b))
  | .detailedStats steps => .ok (.detailed (foldStats steps))
  | .unknown name => misuse ("unknown memutils fn " ++ Text.quote name)

/-- The answer to a layout request: the layout, its text and the same alignment at another
    size. The other size is read once the layout is made. -/
def layoutAnswer (size : Int64) (align : UInt64) (withSize : Option (Field Int64)) : Answer :=
  match Layout.make size align with
  | .error f => failWith f
  | .ok l =>
    match withSize with
    | none => .ok (.layout l l.render none)
    | some w => (required w).map fun n => .layout l l.render (some (l.withSize n))

/-- The answer to an array request: the element type is named first, then the count read. -/
def arrayAnswer (elem : String) (count : Field Int64) : Answer :=
  match Elem.ofName? elem with
  | none => misuse "unknown elem"
  | some e =>
    match required count with
    | .error e => .error e
    | .ok n => ofExcept (Layout.array e.layout n) fun l => .arrayLayout l e.layout

/-- The answer to a region request: the region in bytes and whether it fits. -/
def regionAnswer (r : Region) (elemSize oldLen newLen : Int64) : Answer :=
  let fits := match r.fits oldLen newLen with
    | .ok () => none
    | .error f => some f.message
  .ok (.region (r.scale elemSize) fits)

def flagsAnswer (family : String) (value : Int32) : Answer :=
  if family == "bitmap" then .ok (.text (Flags.render Flags.arenaNames value))
  else if family == "block" then .ok (.text (Flags.render Flags.storeNames value))
  else misuse "unknown flags type"

end Session

end BlockArena
