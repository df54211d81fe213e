import BlockArena.Session.Answer
import BlockArena.Storage.Basic
import BlockArena.Wire.Misread

/-! # Requests

The request language. A request either asks one question of the word rules, layouts,
regions and texts, or builds an arena, a heap or a storage and runs a list of steps on it.
Names that select a variant (element types, handle kinds, resolve modes, resize forms) are
kept as text here and read by the interpreter, which answers unknown ones as a misuse (except
resolve modes, where an unknown name means the plain mode). A
request or a step whose members could not be read is kept as its `misread`, which answers it.

Some steps use their members one at a time, between lookups and checks of their own: such a
member is kept as a `Field`, as it was read, and the step reports its misread only when it
comes to use it. So which of two faults a step reports follows the order in which it uses its
members. A handle member is read in two parts (`HandleField`): first whether it has the form
of a handle of the storage at all, then whether the number it holds names one.
-/

set_option autoImplicit false

namespace BlockArena

namespace Session

/-- A member of a step as it was read: its value, or why it could not be read. -/
abbrev Field (α : Type) := Except Wire.Misread α

/-- A handle member as it was read: whether it has the form of a handle, and then whether what
    it holds names one. -/
abbrev HandleField := Field (Field Token)

/-- The value of a member as it was read, or the misuse that answers its misread. -/
def required {α : Type} (f : Field α) : Except Failure α :=
  f.mapError fun why => .misuse why.message

/-- A step of the detailed-statistics exercise. -/
inductive StatsStep where
  | freeRun (bytes : Int64)
  | add (base : Stats) (runs : List Int64)
  | clear
  | clearBase
  | unknown (name : String)
  deriving Inhabited, Repr

/-- A question about the word rules. -/
inductive WordCall where
  | checkPow2 (a : Int64) (name : String)
  | checkPow2Word (a : UInt64) (name : String)
  | alignUp (a : Int64) (b : UInt64)
  | divCeil (a b : Int64)
  | mulOverflows (a b : Int64)
  | detailedStats (steps : List StatsStep)
  | unknown (name : String)
  deriving Inhabited, Repr

/-- How an arena request gets its arena. -/
structure ArenaSpec where
  blockSize : Int64
  blockCount : Int64
  /-- The buffer size; by default what the arena needs. Only an arena over an owner's buffer
      reads it. -/
  bufferSize : Field (Option Int64) := .ok none
  /-- Give no buffer at all. -/
  noBuffer : Bool := false
  /-- Take the buffer from the process heap. -/
  onHeap : Bool := false
  deriving Inhabited

/-- A step on an arena. Offsets are byte offsets into its buffer. -/
inductive ArenaStep where
  | alloc (l : Layout)
  | dealloc (off : Int) (l : Field Layout)
  | relocate (off : Int) (l : Field Layout)
  | growInPlace (off : Int) (old new : Field Layout)
  | shrinkInPlace (off : Int) (old new : Field Layout)
  | owns (off : Int) (l : Field Layout)
  | isEmpty
  | stats
  | detailedStats
  | map
  | release
  | setAllocId (id : UInt64)
  | allocId
  | blockSize
  | blockCount
  | read (off : Int) (len : Field Int)
  | write (off : Int) (data : Field ByteArray)
  | collect (space name : String)
  | unknown (name : String)
  /-- The step `name`, whose members could not be read. -/
  | misread (name : String) (why : Wire.Misread)
  deriving Inhabited

/-- A step on the process heap; allocations are named by their number. -/
inductive HeapStep where
  | alloc (l : Layout)
  | dealloc (id : Int) (l : Field Layout)
  | owns (id : Int) (l : Field Layout)
  | stats
  | setAllocId (id : UInt64)
  | allocId
  | collect (space name : String)
  | unknown (name : String)
  | misread (why : Wire.Misread)
  deriving Inhabited

/-- The kind of storage a storage request builds. -/
inductive StoreKind where
  /-- Handles over a block arena taken from a parent allocator, which may refuse or hand out
      no buffer. -/
  | block (blockSize blockCount : Int64) (flags : Int32) (parentRefuses parentEmpty : Bool)
  /-- Address handles over a block arena. -/
  | address (blockSize blockCount : Int64)
  /-- One allocation in a buffer of `capacity` elements. -/
  | inline (elem : String) (capacity : Int64)
  | unknown (name : String)
  deriving Inhabited, Repr

/-- A step on a storage: raw storage calls, then handle calls on named slots and references. -/
inductive StoreStep where
  | allocate (l : Layout) (zeroed : Bool)
  | deallocate (h : HandleField) (l : Field Layout)
  | resize (h : HandleField) (old new : Field Layout) (form : Field ResizeForm)
  | dangling (align : UInt64)
  | resolve (h : HandleField)
  | resolveSize (h : HandleField)
  | resolveSliced (h : HandleField)
  | epoch
  | addressStable
  | read (h : HandleField) (off len : Field Int64)
  | write (h : HandleField) (off : Field Int64) (data : Field ByteArray)
  | compact
  | len
  | stats
  | detailedStats
  | map
  | release
  | collect (space name : String)
  | handleDangling (slot kind elem : String) (count : Field Int64) (aborting : Bool)
  | handleAllocate (slot kind elem : String) (count : Field Int64) (zeroed aborting : Bool)
  | handleNew (slot kind elem : String) (count : Field Int64) (value : Field ByteArray)
      (aborting : Bool)
  | handleFromRaw (slot kind elem : String) (count : Field Int64) (h : HandleField)
      (len : Field Int64)
  | handleInfo (slot : String)
  | handleLen (slot : String)
  | handleIsEmpty (slot : String)
  | handleRaw (slot : String)
  | handleResolve (slot mode : String)
  | handleWrite (slot : String) (index : Field Int64) (value : Field ByteArray)
  | handleDealloc (slot : String)
  | handleResize (slot form : String) (newLen : Field Int64) (region : Field Region)
      (aborting : Bool) (toSlot : Option String)
  | handleRef (slot ref : String)
  | refGet (ref : String)
  | refValid (ref : String)
  | refZero (ref : String)
  | handleCoerce (slot elem : String) (toSlot : Option String)
  | handleInto (slot : String) (toSlot : Option String)
  | handleCopy (slot : String) (toSlot : Option String)
  /-- An operation of no known name, with the slot it names. -/
  | unknown (name slot : String)
  | misread (why : Wire.Misread)
  deriving Inhabited

/-- A request. -/
inductive Request where
  | word (call : WordCall)
  | layout (size : Int64) (align : UInt64) (withSize : Option (Field Int64))
  | arrayLayout (elem : String) (count : Field Int64)
  | neededBytes (blockSize blockCount : Int64)
  | region (r : Region) (elemSize oldLen newLen : Int64)
  | danglingPointer (align : UInt64)
  | flagsText (family : String) (value : Int32)
  | failureMessage (l : Layout)
  | arena (spec : ArenaSpec) (steps : List ArenaStep)
  | heap (steps : List HeapStep)
  | store (kind : StoreKind) (sized : Bool) (steps : List StoreStep)
  | unknown (name : String)
  | misread (why : Wire.Misread)
  deriving Inhabited

end Session

end BlockArena
