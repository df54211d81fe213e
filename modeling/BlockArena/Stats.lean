import BlockArena.Word

/-! # Statistics

`Stats` counts arenas, live allocations, and the bytes of each; `DetailedStats` adds the
number of free runs and the smallest and largest of them. Both are built by adding: the
counts are sums (wrapping like every word), the smallest run is a minimum that starts at
`maxInt` and the largest a maximum that starts at zero, so an object with no runs is the
neutral element of `merge`.
-/

set_option autoImplicit false

namespace BlockArena

/-- Counts of arenas and allocations, and their bytes. -/
structure Stats where
  arenaCount : Int64 := 0
  allocationCount : Int64 := 0
  arenaBytes : Int64 := 0
  allocationBytes : Int64 := 0
  deriving DecidableEq, Inhabited, Repr

namespace Stats

def add (s t : Stats) : Stats where
  arenaCount := s.arenaCount + t.arenaCount
  allocationCount := s.allocationCount + t.allocationCount
  arenaBytes := s.arenaBytes + t.arenaBytes
  allocationBytes := s.allocationBytes + t.allocationBytes

/-- Arena bytes that no allocation claims. -/
def freeBytes (s : Stats) : Int64 := s.arenaBytes - s.allocationBytes

end Stats

/-- Statistics with the free runs of the arenas: how many, the smallest and the largest. -/
structure DetailedStats where
  base : Stats := {}
  freeRunCount : Int64 := 0
  freeRunMin : Int64 := Word.maxInt
  freeRunMax : Int64 := 0
  deriving DecidableEq, Inhabited, Repr

namespace DetailedStats

/-- The cleared object: no arenas, no runs, the smallest run at `maxInt`. -/
def cleared : DetailedStats := {}

def addFreeRun (s : DetailedStats) (bytes : Int64) : DetailedStats :=
  { s with
    freeRunCount := s.freeRunCount + 1
    freeRunMin := min s.freeRunMin bytes
    freeRunMax := max s.freeRunMax bytes }

def merge (s t : DetailedStats) : DetailedStats where
  base := s.base.add t.base
  freeRunCount := s.freeRunCount + t.freeRunCount
  freeRunMin := min s.freeRunMin t.freeRunMin
  freeRunMax := max s.freeRunMax t.freeRunMax

def clearBase (s : DetailedStats) : DetailedStats :=
  { s with base := {} }

def ofRuns (base : Stats) (runs : List Int64) : DetailedStats :=
  runs.foldl addFreeRun { base := base }

end DetailedStats

end BlockArena
