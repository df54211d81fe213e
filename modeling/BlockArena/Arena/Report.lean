import BlockArena.Arena.Alloc
import BlockArena.Stats

/-! # Reporting on an arena

The blocks of an arena fall into maximal runs of equal occupancy, listed in address order
(`runs`). The statistics count one arena of `blockCount * blockSize` bytes and the counters;
the detailed statistics add one free run per maximal free run. The map is a JSON text with the
allocator id, block size, management blocks, total and unused bytes, the allocation count and
the runs with their byte offsets and sizes.

Reading the runs needs every block's bit; a table too short for that (a released arena has
none) is an indexing fault at its first missing byte. Releasing an arena with live
allocations reads the runs too, before it refuses.
-/

set_option autoImplicit false

namespace BlockArena

/-- A maximal stretch of blocks that are all used or all free. -/
structure Run where
  first : Nat
  count : Nat
  free : Bool
  deriving DecidableEq, Inhabited, Repr

namespace Arena

/-- Extend a list of runs, latest first, by one more block. -/
def pushBlock (runs : List Run) (b : Nat) (used : Bool) : List Run :=
  match runs with
  | r :: rest => if r.free == !used then { r with count := r.count + 1 } :: rest
                 else ⟨b, 1, !used⟩ :: r :: rest
  | [] => [⟨b, 1, !used⟩]

def usedBit (a : Arena) (b : Nat) : Bool :=
  (Buffer.byteAt a.bytes (b / 8) &&& ((0x80 : UInt8) >>> (b % 8).toUInt8)) != 0

/-- The maximal runs of blocks `0 … blockCount - 1`, in address order. -/
def runs (a : Arena) : Except Fault (List Run) :=
  let n := a.blockCount.toNatClampNeg
  if a.tableLength * 8 < n then .error (.indexOutOfRange a.tableLength a.tableLength)
  else .ok ((List.range n).foldl (fun rs b => pushBlock rs b (a.usedBit b)) []).reverse

def stats (a : Arena) : Stats where
  arenaCount := 1
  allocationCount := a.allocationCount
  arenaBytes := a.blockCount * a.blockSize
  allocationBytes := a.usedBlocks * a.blockSize

def runBytes (a : Arena) (r : Run) : Int64 := Int64.ofNat r.count * a.blockSize

def runOffset (a : Arena) (r : Run) : Int64 := a.blockOffset (Int64.ofNat r.first)

def detailedStats (a : Arena) : Except Fault DetailedStats :=
  (a.runs).map fun rs =>
    DetailedStats.ofRuns a.stats ((rs.filter (·.free)).map a.runBytes)

/-- Hand the buffer back: refused once released, and while allocations are live. Before it
    refuses live allocations it walks the runs to name those still in use, so a table too short
    for the blocks faults first. Afterwards the arena has no buffer and no table. -/
def release : Act Arena Unit := do
  let a ← get
  if a.released then Act.fail .alreadyReleased
  else if 0 < a.allocationCount then
    let _ ← Act.ofExcept a.runs
    Act.fail (.liveAllocations a.allocationCount)
  else set { a with released := true, tableLength := 0 }

def runText (a : Arena) (r : Run) : String :=
  let o := toString (a.runOffset r)
  let s := toString (a.runBytes r)
  let f := toString r.free
  "\x7b\"Offset\":" ++ o ++ ",\"Size\":" ++ s ++ ",\"Free\":" ++ f ++ "\x7d"

def mapText (a : Arena) : Except Fault String :=
  (a.runs).map fun rs =>
    let st := a.stats
    let id := toString a.allocId
    let bs := toString a.blockSize
    let mg := toString a.managementBlocks
    let total := toString st.arenaBytes
    let unused := toString st.freeBytes
    let count := toString st.allocationCount
    let runList := ",".intercalate (rs.map a.runText)
    "\x7b\"AllocID\":" ++ id ++ ",\"BlockSize\":" ++ bs ++ ",\"ManagementBlocks\":" ++ mg ++
      ",\"TotalBytes\":" ++ total ++ ",\"UnusedBytes\":" ++ unused ++ ",\"Allocations\":" ++
      count ++ ",\"Runs\":[" ++ runList ++ "]\x7d"

end Arena

end BlockArena
