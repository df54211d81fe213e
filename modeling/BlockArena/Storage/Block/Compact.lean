import BlockArena.Arena.Report
import BlockArena.Storage.Block

/-! # Compacting and reporting a block storage

`compact` slides allocations toward the front of the arena: in address order, each allocation
moves to the first fit that counts its own blocks as free, and its bytes follow it. An
allocation that cannot move stays where it is. Handles survive; the epoch goes up once.
Moving the bytes is a checked move (`Memory.move`): an entry whose recorded size is negative
faults after the arena has already moved its blocks, which ends the compaction with the entry
and the epoch as they were.

The map of a block storage lists the live handles in address order, then the arena's map.
A storage releases its arena only when no handle is live.
-/

set_option autoImplicit false

namespace BlockArena

namespace BlockStore

/-- The live handles and their entries in address order. -/
def byAddress (s : BlockStore) : List (UInt64 × BlockEntry) :=
  s.entries.mergeSort fun a b => a.2.offset ≤ b.2.offset

/-- What a compaction did: bytes and allocations moved. -/
structure Compaction where
  bytesMoved : Int64 := 0
  allocationsMoved : Int64 := 0
  deriving DecidableEq, Inhabited, Repr

/-- Relocate one allocation and count it when it moved. A refusal leaves it in place; an
    abort, or a fault while moving the bytes, ends the compaction. -/
def compactOne (c : Compaction) (he : UInt64 × BlockEntry) : Act BlockStore Compaction :=
  fun s =>
    let (h, e) := he
    match (Arena.relocate e.offset e.layout).run s.arena with
    | .error f a =>
      if f.aborts then .error f { s with arena := a } else .ok c { s with arena := a }
    | .ok (off, size) a =>
      let s := { s with arena := a }
      if off = e.offset then .ok c s
      else
        let n := min e.size size
        match Memory.move s.space (.offset off.toInt) 0 (.offset e.offset.toInt) 0 n with
        | .error f => .error f s
        | .ok m =>
          let s := { s.withSpace m with
            entries := (h, ⟨off, e.layout, size⟩) :: s.entries.filter (·.1 != h) }
          .ok { bytesMoved := c.bytesMoved + n, allocationsMoved := c.allocationsMoved + 1 } s

/-- Slide every allocation, in address order, to the first fit that can hold it. -/
def compact : Act BlockStore Compaction := do
  let c ← (byAddress (← get)).foldlM compactOne {}
  bump
  pure c

def handleText (he : UInt64 × BlockEntry) : String :=
  let h := toString he.1
  let o := toString he.2.offset
  let s := toString he.2.size
  let r := toString he.2.layout.size
  "\x7b\"Handle\":" ++ h ++ ",\"Offset\":" ++ o ++ ",\"Size\":" ++ s ++ ",\"RequestedSize\":" ++
    r ++ "\x7d"

/-- The map of the storage as JSON text: the live handles in address order, then the arena. -/
def mapText (s : BlockStore) : Except Fault String :=
  (s.arena.mapText).map fun arena =>
    let hs := ",".intercalate ((byAddress s).map handleText)
    "\x7b\"Handles\":[" ++ hs ++ "],\"Arena\":" ++ arena ++ "\x7d"

/-- Hand the arena back, refused while handles are live. -/
def release : Act BlockStore Unit := do
  let s ← get
  if 0 < s.count then Act.fail (.liveHandles (Int64.ofNat s.count))
  else onArena Arena.release

end BlockStore

end BlockArena
