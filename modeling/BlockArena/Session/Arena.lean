import BlockArena.Arena.Alloc
import BlockArena.Arena.Report
import BlockArena.Session.Answer
import BlockArena.Session.Request
import BlockArena.Text.Hex

/-! # Running steps on an arena

An arena request builds one arena and runs its steps in order; a failed step leaves the arena
as the step left it, and the next step goes on from there.

The buffer is either given by an owner that counts the buffers handed back to it, or taken
from the process heap (a composable arena), which only allows the steps that do not name an
offset. Offsets named in steps must lie within 64 KiB of the buffer; a step checks its offset
before it reads the layouts it names, the length of a read or the data of a write. Reading or
writing no
bytes always succeeds; other reads that are not wholly inside the buffer have no data, and
other writes outside it are refused.
-/

set_option autoImplicit false

namespace BlockArena

namespace Session

/-- An arena under test: the arena, whether its buffer came from the heap, and how many
    buffers its owner got back. -/
structure ArenaRun where
  arena : Arena
  composable : Bool
  parentDeallocs : Nat := 0

/-- How far outside the buffer an offset in a step may point. -/
def offsetSlack : Int := 65536

/-- An offset in a step must lie within the slack around a buffer of `size` bytes. -/
def pinnedOffset (size off : Int) : Except String Int :=
  if -offsetSlack ≤ off && off ≤ size + offsetSlack then .ok off
  else .error ("offset " ++ toString off ++ " lies outside the pinned buffer")

def checkOffset (a : Arena) (off : Int) : Except Failure Int64 :=
  match pinnedOffset a.bufferSize.toInt off with
  | .ok o => .ok (Int64.ofInt o)
  | .error m => misuse m

/-- An offset in a step, then the other members it names, which must have been read. -/
def placedWith {α : Type} (a : Arena) (off : Int) (rest : Field α) :
    Except Failure (Int64 × α) := do
  let o ← checkOffset a off
  pure (o, ← required rest)

/-- The bytes `[off, off + len)` of a buffer: empty when `len` is zero, wherever `off` is, and
    nothing when they do not lie wholly inside the buffer. -/
def readInside (bytes : ByteArray) (off len : Int) : Option String :=
  if len = 0 then some ""
  else if 0 ≤ off && 0 ≤ len && off + len ≤ bytes.size then
    (Buffer.read? bytes off.toNat len.toNat).map Text.hexOfBytes
  else none

/-- Write bytes at `off`. Writing nothing always succeeds; other writes must lie wholly inside
    the buffer. -/
def writeInside (bytes : ByteArray) (off : Int) (data : ByteArray) : Except Failure ByteArray :=
  if data.size = 0 then .ok bytes
  else if 0 ≤ off && off + data.size ≤ bytes.size then .ok (Buffer.write bytes off.toNat data)
  else misuse "refusing to write outside the storage buffer"

/-- Run an arena action, keeping the state it leaves also when it fails. -/
def ArenaRun.act {α : Type} (s : ArenaRun) (act : Act Arena α) (reply : α → Reply) :
    Answer × ArenaRun :=
  match act.run s.arena with
  | .ok a st => (.ok (reply a), { s with arena := st })
  | .error f st => (failWith f, { s with arena := st })

def composableNames : List String :=
  ["alloc", "is_empty", "stats", "detailed_stats", "map", "block_size", "block_count",
   "set_alloc_id", "alloc_id", "collect", "release"]

/-- The steps a composable arena allows; a step that could not be read counts by its name. -/
def ArenaStep.composable : ArenaStep → Bool
  | .alloc _ | .isEmpty | .stats | .detailedStats | .map | .blockSize | .blockCount => true
  | .setAllocId _ | .allocId | .collect .. | .release => true
  | .misread name _ => composableNames.contains name
  | _ => false

def ArenaRun.step (s : ArenaRun) (st : ArenaStep) : Answer × ArenaRun :=
  let a := s.arena
  if s.composable && !st.composable then (misuse "op not available on a composable bitmap", s)
  else match st with
  | .alloc l => s.act (Arena.alloc l) fun p => .placed p.1.toInt p.2.toInt
  | .dealloc off l =>
    match placedWith a off l with
    | .error e => (.error e, s)
    | .ok (o, l) => s.act (Arena.dealloc o l) fun _ => .empty
  | .relocate off l =>
    match placedWith a off l with
    | .error e => (.error e, s)
    | .ok (o, l) => s.act (Arena.relocate o l) fun p => .placed p.1.toInt p.2.toInt
  | .growInPlace off old new =>
    match placedWith a off (Prod.mk <$> old <*> new) with
    | .error e => (.error e, s)
    | .ok (o, old, new) => s.act (Arena.growInPlace o old new) fun p => .grown p.1.toInt p.2
  | .shrinkInPlace off old new =>
    match placedWith a off (Prod.mk <$> old <*> new) with
    | .error e => (.error e, s)
    | .ok (o, old, new) => s.act (Arena.shrinkInPlace o old new) fun n => .size n.toInt
  | .owns off l =>
    match placedWith a off l with
    | .error e => (.error e, s)
    | .ok _ => (.ok (.owns (a.owns (.offset off))), s)
  | .isEmpty => (.ok (.emptiness a.isEmpty), s)
  | .stats => (.ok (.stats a.stats), s)
  | .detailedStats => (ofExcept a.detailedStats .detailed, s)
  | .map => (ofExcept a.mapText .map, s)
  | .release =>
    let (r, s') := s.act Arena.release fun _ => .empty
    match r with
    | .ok _ =>
      let n := if s.composable then s'.parentDeallocs else s'.parentDeallocs + 1
      (.ok (.released n), { s' with parentDeallocs := n })
    | .error e => (.error e, s')
  | .setAllocId id => (.ok .empty, { s with arena := { a with allocId := id.toUInt16 } })
  | .allocId => (.ok (.id a.allocId.toNat), s)
  | .blockSize => (.ok (.value a.blockSize.toInt), s)
  | .blockCount => (.ok (.value a.blockCount.toInt), s)
  | .read off len =>
    match placedWith a off len with
    | .error e => (.error e, s)
    | .ok (_, len) => (.ok (.data (readInside a.bytes off len)), s)
  | .write off data =>
    match placedWith a off data with
    | .error e => (.error e, s)
    | .ok (_, data) =>
      match writeInside a.bytes off data with
      | .error e => (.error e, s)
      | .ok b => (.ok .empty, { s with arena := { a with bytes := b } })
  | .collect space name => (ofExcept (Metrics.scrape space name a.stats) .scrape, s)
  | .unknown _ => (misuse "unknown bitmap op", s)
  | .misread _ why => (misuse why.message, s)

def ArenaRun.steps (s : ArenaRun) : List ArenaStep → List Answer
  | [] => []
  | st :: rest =>
    let (r, s') := s.step st
    r :: s'.steps rest

/-- The largest buffer an owner hands out. -/
def maxBuffer : Int64 := 1048576

/-- Build the arena of a request: from the heap, or over a buffer of the given size (by default
    what the arena needs) that its owner hands out. Only the second reads the size. -/
def ArenaSpec.build (spec : ArenaSpec) : Except Failure ArenaRun :=
  if spec.onHeap then
    match Arena.createOnHeap spec.blockSize spec.blockCount with
    | .ok a => .ok { arena := a, composable := true }
    | .error f => failWith f
  else do
    let size : Except Fault Int64 := match ← required spec.bufferSize with
      | some n => .ok n
      | none => Arena.neededBytes spec.blockSize spec.blockCount
    match size with
    | .error f => failWith f
    | .ok n =>
      if n < 0 || maxBuffer < n then misuse "buffer_size must lie in [0, 1048576]"
      else
        match Arena.create (!spec.noBuffer) n 8 spec.blockSize spec.blockCount with
        | .ok a => .ok { arena := a, composable := false }
        | .error f => failWith f

/-- The response to an arena request: the failure of its set-up, or one answer per step. -/
def arenaResponse (spec : ArenaSpec) (steps : List ArenaStep) : Response :=
  match spec.build with
  | .error e => .single (.error e)
  | .ok s => .results (s.steps steps)

end Session

end BlockArena
