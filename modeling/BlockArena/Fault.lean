import BlockArena.Elem
import BlockArena.Text.Argument
import BlockArena.Text.ByteSize
import BlockArena.Text.Quoted

/-! # Faults

Everything that can go wrong, as causes. `Fault.message` writes the text of a fault,
`Fault.kind` names the class it belongs to, and `Fault.aborts` says whether it ends the
operation abruptly (an abort) rather than being handed back as a value.

Classes follow how a fault is built: a fault that wraps another one (`unaddressable`,
`arenaUnavailable`, `composableArena`) belongs to the class of what it wraps, and every
allocation refusal belongs to `allocation` whatever text it carries.
-/

set_option autoImplicit false

namespace BlockArena

/-- The classes of faults, from the most specific to the most general. -/
inductive FaultKind where
  /-- An aborting allocation entry point gave up. -/
  | allocationAborted
  /-- A single-use handle was used after it was consumed. -/
  | consumedHandle
  /-- A resolved reference outlived its epoch. -/
  | staleReference
  /-- An allocation was refused. -/
  | allocation
  /-- A number that must be a power of two is not. -/
  | powerOfTwo
  /-- Arithmetic or indexing went out of bounds. -/
  | runtime
  /-- Any other error value. -/
  | error
  /-- An abort with a plain message. -/
  | abort
  deriving DecidableEq, Inhabited, Repr

/-- What went wrong. -/
inductive Fault where
  /-- `what` is `value`, which is not a positive power of two. -/
  | notPowerOfTwo (what : String) (value : Int)
  | negativeSize (size : Int64)
  | sizeOverflows (size : Int64) (align : UInt64)
  | arrayOverflows (count : Int64) (elemSize : Int64)
  | divideByZero
  /-- An index outside a byte table of the given length. -/
  | indexOutOfRange (index : Int) (length : Nat)
  /-- A buffer of negative length was asked for. -/
  | lengthOutOfRange
  /-- A run of elements whose length is negative or does not fit above its address. -/
  | runOutOfRange
  /-- A run of elements with a length at the null address. -/
  | runAtNull
  /-- Bytes were read or written near the null address, where no memory is mapped. -/
  | nullAccess
  | noBackingBuffer
  | blockCountNotPositive (count : Int64)
  | bufferTooSmall (size needed : Int64)
  /-- An arena of `count` blocks of `blockSize` bytes has no valid layout. -/
  | unaddressable (count blockSize : Int64) (cause : Fault)
  | composableArena (cause : Fault)
  | invalidLayout (cause : Fault)
  | tooManyBlocks (layout : Layout) (needed count : Int64)
  | noFreeRun (needed : Int64) (layout : Layout)
  | noFreeRunToRelocate (needed : Int64) (layout : Layout)
  | relocateForeign
  | deallocForeign
  | alreadyReleased
  | liveAllocations (count : Int64)
  | heapLimit (layout : Layout)
  | heapForeign
  | danglingAlignment (cause : Fault)
  | danglingTooStrict (align : UInt64)
  | regionNegative (src dst size : Int64)
  | regionReadsPast (start stop holds : Int64)
  | regionWritesPast (start stop holds : Int64)
  | blockCountNegative (count : Int64)
  | arenaUnavailable (cause : Fault)
  | parentRefused
  | parentLimit
  | handleNotLive (handle : UInt64)
  | liveHandles (count : Int64)
  | inlineTooSmall (layout : Layout) (capacity : Int64)
  | inlineOverAligned (layout : Layout)
  | inlineOccupied
  /-- An aborting entry point could not obtain `layout`. -/
  | allocationAborted (layout : Layout)
  | coerceSize (source target : Elem)
  | coerceAlign (source target : Elem)
  | castSize (source target : Elem)
  | castAlign (source target : Elem)
  /-- The operation `op` was called on a consumed single-use handle. -/
  | consumed (op : String)
  | neverResolved
  | staleEpoch (resolved current : UInt64)
  | invalidMetricName (name : String)
  deriving Inhabited, Repr

namespace Fault

def kind : Fault → FaultKind
  | .notPowerOfTwo .. => .powerOfTwo
  | .arrayOverflows .. => .allocation
  | .divideByZero | .indexOutOfRange .. | .lengthOutOfRange => .runtime
  | .runOutOfRange | .runAtNull | .nullAccess => .runtime
  | .unaddressable _ _ cause => cause.kind
  | .composableArena cause => cause.kind
  | .arenaUnavailable cause => cause.kind
  | .invalidLayout _ | .tooManyBlocks .. | .noFreeRun .. | .noFreeRunToRelocate .. => .allocation
  | .heapLimit _ | .danglingAlignment _ | .danglingTooStrict _ => .allocation
  | .parentRefused | .parentLimit => .allocation
  | .inlineTooSmall .. | .inlineOverAligned _ | .inlineOccupied => .allocation
  | .relocateForeign | .deallocForeign | .heapForeign => .abort
  | .allocationAborted _ => .allocationAborted
  | .consumed _ => .consumedHandle
  | .neverResolved | .staleEpoch .. => .staleReference
  | _ => .error

/-- Faults that end an operation abruptly instead of being returned to the caller. -/
def aborts : Fault → Bool
  | .divideByZero | .indexOutOfRange .. | .lengthOutOfRange => true
  | .runOutOfRange | .runAtNull | .nullAccess => true
  | .relocateForeign | .deallocForeign | .heapForeign => true
  | .handleNotLive _ | .allocationAborted _ | .consumed _ => true
  | .neverResolved | .staleEpoch .. | .invalidMetricName _ => true
  | _ => false

def allocationFailed : String := "allocation failed"

def staleSuffix : String := "stale resolved reference"

/-- The text of a fault. Wrapping faults write their own words, a colon, and the text of what
    they wrap. -/
def message : Fault → String
  | .notPowerOfTwo what value =>
    let v := toString value
    Text.escapeArgument what ++ " is " ++ v ++ ": number must be a power of two"
  | .negativeSize size =>
    let s := toString size
    "layout size " ++ s ++ " is negative"
  | .sizeOverflows size align =>
    let s := toString size
    let a := toString align
    "layout size " ++ s ++ " overflows when aligned to " ++ a
  | .arrayOverflows count elemSize =>
    let c := toString count
    let e := toString elemSize
    "array of " ++ c ++ " elements of size " ++ e ++ " overflows: " ++ allocationFailed
  | .divideByZero => "runtime error: integer divide by zero"
  | .indexOutOfRange index length =>
    let i := toString index
    let n := toString length
    if index < 0 then "runtime error: index out of range [" ++ i ++ "]"
    else "runtime error: index out of range [" ++ i ++ "] with length " ++ n
  | .lengthOutOfRange => "runtime error: makeslice: len out of range"
  | .runOutOfRange => "runtime error: unsafe.Slice: len out of range"
  | .runAtNull => "runtime error: unsafe.Slice: ptr is nil and len is not zero"
  | .nullAccess => "runtime error: invalid memory address or nil pointer dereference"
  | .noBackingBuffer => "a bitmap allocator requires a backing buffer"
  | .blockCountNotPositive count =>
    let c := toString count
    "numBlocks must be positive, but was " ++ c
  | .bufferTooSmall size needed =>
    let s := toString size
    let n := toString needed
    "provided buffer of " ++ s ++ " bytes is not large enough, " ++ n ++ " bytes are needed"
  | .unaddressable count blockSize cause =>
    let c := toString count
    let b := toString blockSize
    c ++ " blocks of " ++ b ++ " bytes cannot be addressed: " ++ cause.message
  | .composableArena cause =>
    "failed to allocate memory for composable allocator: " ++ cause.message
  | .invalidLayout cause =>
    "invalid layout: " ++ cause.message ++ ": " ++ allocationFailed
  | .tooManyBlocks layout needed count =>
    let n := toString needed
    let c := toString count
    layout.render ++ " needs " ++ n ++ " blocks, but the arena only has " ++ c ++ ": " ++
      allocationFailed
  | .noFreeRun needed layout =>
    let n := toString needed
    "no run of " ++ n ++ " free blocks for " ++ layout.render ++ ": " ++ allocationFailed
  | .noFreeRunToRelocate needed layout =>
    let n := toString needed
    "no run of " ++ n ++ " free blocks to relocate " ++ layout.render ++ ": " ++
      allocationFailed
  | .relocateForeign => "cannot relocate an allocation that isn\x27t owned by the allocator"
  | .deallocForeign => "cannot deallocate an allocation that isn\x27t owned by the allocator"
  | .alreadyReleased => "bitmap allocator was already released"
  | .liveAllocations count =>
    let c := toString count
    c ++ " allocations were not freed before the release of this bitmap allocator"
  | .heapLimit layout =>
    layout.render ++ " exceeds the heap allocation limit of 1099511627776 bytes: " ++
      allocationFailed
  | .heapForeign => "attempted to free memory that was not allocated by this heap allocator"
  | .danglingAlignment cause =>
    "invalid dangling alignment: " ++ cause.message ++ ": " ++ allocationFailed
  | .danglingTooStrict align =>
    let a := toString align
    "dangling alignment " ++ a ++ " exceeds 4096: " ++ allocationFailed
  | .regionNegative src dst size =>
    let s := toString src
    let d := toString dst
    let z := toString size
    "copy region \x7bSrcOffset:" ++ s ++ " DstOffset:" ++ d ++ " Size:" ++ z ++
      "\x7d has a negative field"
  | .regionReadsPast start stop holds =>
    let a := toString start
    let b := toString stop
    let h := toString holds
    "copy region reads [" ++ a ++ ", " ++ b ++ ") but the source only holds " ++ h
  | .regionWritesPast start stop holds =>
    let a := toString start
    let b := toString stop
    let h := toString holds
    "copy region writes [" ++ a ++ ", " ++ b ++ ") but the destination only holds " ++ h
  | .blockCountNegative count =>
    let c := toString count
    "BlockCount must be positive, but was " ++ c
  | .arenaUnavailable cause =>
    "failed to allocate the block storage arena: " ++ cause.message
  | .parentRefused => "parent refused: " ++ allocationFailed
  | .parentLimit => "parent limit of 1048576 bytes exceeded: " ++ allocationFailed
  | .handleNotLive handle =>
    let h := toString handle
    "block storage handle " ++ h ++ " is not live"
  | .liveHandles count =>
    let c := toString count
    c ++ " handles were not freed before the release of this block storage"
  | .inlineTooSmall layout capacity =>
    let c := toString capacity
    layout.render ++ " does not fit in " ++ c ++ " inline bytes: " ++ allocationFailed
  | .inlineOverAligned layout =>
    layout.render ++ " is more strictly aligned than the inline buffer: " ++ allocationFailed
  | .inlineOccupied => "inline storage already holds an allocation: " ++ allocationFailed
  | .allocationAborted layout =>
    let human := Text.byteSize layout.size.toUInt64.toNat
    let s := toString layout.size
    let a := toString layout.align
    "memory allocation of " ++ human ++ " (" ++ s ++ " bytes, alignment " ++ a ++ ") failed"
  | .coerceSize source target =>
    let a := toString source.size
    let b := toString target.size
    "cannot coerce " ++ source.typeName ++ " to " ++ target.typeName ++ ": size " ++ a ++
      " does not match " ++ b
  | .coerceAlign source target =>
    let a := toString target.align
    let b := toString source.align
    "cannot coerce " ++ source.typeName ++ " to " ++ target.typeName ++ ": alignment " ++ a ++
      " exceeds " ++ b
  | .castSize source target =>
    let a := toString source.size
    let b := toString target.size
    "cannot cast elements of size " ++ a ++ " to elements of size " ++ b
  | .castAlign source target =>
    let a := toString source.align
    let b := toString target.align
    "cannot cast elements aligned to " ++ a ++ " to elements aligned to " ++ b
  | .consumed op => op ++ ": use of consumed unique handle"
  | .neverResolved => "reference was never resolved: " ++ staleSuffix
  | .staleEpoch resolved current =>
    let r := toString resolved
    let c := toString current
    "resolved in epoch " ++ r ++ ", storage is now in epoch " ++ c ++ ": " ++ staleSuffix
  | .invalidMetricName name => Text.quote name ++ " is not a valid metric name"

end Fault

end BlockArena
