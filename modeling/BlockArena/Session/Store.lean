import BlockArena.Storage.Address
import BlockArena.Storage.Block.Compact
import BlockArena.Storage.Block.Create
import BlockArena.Storage.Inline
import BlockArena.Storage.Sized
import BlockArena.Session.Arena
import BlockArena.Session.Handles

/-! # Running steps on a storage

A storage request builds one storage of the kind it names, wraps it to remember sizes if asked,
and runs its steps on a bench with empty slots. Raw steps call the storage directly, handle steps
go through typed handles, and the steps that compact, count, report and release address the
storage itself, as each kind answers them (`Manager`). Block storages number their handles,
address storages use addresses, and inline storages have a single handle written `inline`.

A raw read or write addresses bytes at an offset past a handle's address: the address must lie
in the buffer, the offset must not be negative, and the bytes must end inside the buffer; a read
of negative length has no data. A read reads its length and a write its data first, then the
handle, then the offset. An address handle is `null`, `"dangling"`, or an offset within 64 KiB of
the buffer. A step named `h_` and more, of no known name, looks its slot up before it is refused.
-/

set_option autoImplicit false

namespace BlockArena

namespace Session

/-- The steps that address a storage itself, as one kind answers them. -/
abbrev Manager (σ : Type) := StoreStep → Option (EStateM Failure σ Reply)

def liftAct {σ α : Type} (act : Act σ α) : EStateM Failure σ α := fun s =>
  match act s with
  | .ok a s' => .ok a s'
  | .error f s' => .error (.fault f) s'

def reading {σ : Type} (f : σ → Except Failure Reply) : EStateM Failure σ Reply := do
  match f (← get) with
  | .ok r => pure r
  | .error e => throw e

def reportWith {σ α : Type} (f : σ → Except Fault α) (reply : α → Reply) :
    EStateM Failure σ Reply :=
  reading fun s => (f s).mapError .fault |>.map reply

def unsupported {σ : Type} (text : String) : Option (EStateM Failure σ Reply) :=
  some (throw (.misuse text))

def arenaReport {σ : Type} (arena : σ → Arena) : Manager σ
  | .stats => some (reading fun s => .ok (.stats (arena s).stats))
  | .detailedStats => some (reportWith (fun s => (arena s).detailedStats) .detailed)
  | .collect space name =>
    some (reportWith (fun s => Metrics.scrape space name (arena s).stats) .scrape)
  | _ => none

/-- A block storage compacts, counts its handles, reports, maps and releases. -/
def blockManager : Manager BlockStore
  | .compact => some (do
      let c ← liftAct BlockStore.compact
      pure (.compaction c.bytesMoved.toInt c.allocationsMoved.toInt))
  | .len => some (reading fun s => .ok (.length s.count))
  | .map => some (reportWith BlockStore.mapText .map)
  | .release => some (do
      liftAct BlockStore.release
      pure (.released 1))
  | st => arenaReport (·.arena) st

/-- An address storage reports, maps and releases its arena. -/
def addressManager : Manager AddressStore
  | .compact => unsupported "unknown or unsupported storage op compact"
  | .len => unsupported "unknown or unsupported storage op len"
  | .map => some (reportWith (fun s => s.arena.mapText) .map)
  | .release => some (do
      liftAct (AddressStore.onArena Arena.release)
      pure (.released 1))
  | st => arenaReport (·.arena) st

/-- An inline storage has nothing to compact, report, map or release. -/
def inlineManager : Manager InlineStore
  | .compact => unsupported "unknown or unsupported storage op compact"
  | .len => unsupported "unknown or unsupported storage op len"
  | .map => unsupported "unknown or unsupported storage op map"
  | .collect .. => unsupported "unknown or unsupported storage op collect"
  | .stats | .detailedStats => unsupported "storage has no statistics"
  | .release => unsupported "storage cannot be released"
  | _ => none

/-- Through the size-remembering wrapper, the wrapped storage manages itself. -/
def Manager.sized {σ : Type} (m : Manager σ) : Manager (Sized σ) := fun st =>
  (m st).map fun act s =>
    match act s.inner with
    | .ok r i => .ok r { s with inner := i }
    | .error e i => .error e { s with inner := i }

/-- Block handles are their numbers; handle `0` is the dangling one. -/
def blockCodec : Codec UInt64 where
  encode _ h := .num h.toNat
  decode _
    | .num n => .ok (UInt64.ofInt n)
    | _ => .ok 0

/-- Address handles are written as pointers; an offset must lie within the slack around the
    buffer. -/
def addressCodec : Codec Addr where
  encode size p := Token.ofPointer size p
  decode size
    | .num n => (pinnedOffset size n).map .offset
    | .word "dangling" => .ok .dangling
    | _ => .ok .null

def inlineCodec : Codec Unit where
  encode _ _ := .word "inline"
  decode _ _ := .ok ()

namespace Step

variable {σ H : Type} [Storage σ H]

def manage (act : EStateM Failure σ Reply) : Step σ H Reply := fun b =>
  match act b.store with
  | .ok r s => .ok r { b with store := s }
  | .error e s => .error e { b with store := s }

/-- The size the storage records for a handle, for storages that record sizes. -/
def recordedSize (h : H) : Step σ H Int64 := do
  needSliced
  onStore (Handle.sizeOf h)

/-- Where `len` bytes at `off` past the address `p` start in the storage buffer. The address
    must lie in the buffer and `off` must not be negative; the offset and then the bytes must
    end inside it. -/
def span (p : Addr) (off len : Int) : Step σ H Int := do
  let size := (← memory).size
  match p with
  | .offset pos =>
    if pos < 0 || size < pos || off < 0 then misuse "pointer is not inside the storage buffer"
    else if size < pos + off || size < pos + off + len then
      misuse "range leaves the storage buffer"
    else pure (pos + off)
  | _ => misuse "pointer is not inside the storage buffer"

/-- Whether a step name of no known operation is a handle step: `h_` followed by more. -/
def isHandleStepName (name : String) : Bool := name.startsWith "h_" && 2 < name.length

def perform (codec : Codec H) (manager : Manager σ) (st : StoreStep) : Step σ H Reply :=
  match manager st with
  | some act => manage act
  | none =>
  match st with
  | .allocate l zeroed => do
    let (h, n) ← onStore (if zeroed then Storage.allocateZeroed l else Storage.allocate l)
    pure (.handleSize (← token codec h) n.toInt)
  | .deallocate h l => do
    let hd ← handleIn codec h
    onStore (Storage.deallocate hd (← need l))
    pure .empty
  | .resize h old new form => do
    let hd ← handleIn codec h
    let o ← need old
    let n ← need new
    let (h', size) ← onStore (Storage.resizeWith (← need form) hd o n)
    pure (.handleSize (← token codec h') size.toInt)
  | .dangling align => do
    pure (.handle (← token codec (← onStore (Storage.dangling align))))
  | .resolve h => do pure (.ptr (← pointer (← onStore (Storage.resolve (← handleIn codec h)))))
  | .resolveSize h => do
    needSliced
    pure (.size (← recordedSize (← handleIn codec h)).toInt)
  | .resolveSliced h => do
    needSliced
    let hd ← handleIn codec h
    let n ← recordedSize hd
    let p ← onStore (Storage.resolve hd)
    pure (.ptrSize (← pointer p) n.toInt)
  | .epoch => do pure (.epoch (← epoch).toNat)
  | .addressStable => pure (.stable (Storage.addressStable σ))
  | .read h off len => do
    let n ← need len
    let p ← onStore (Storage.resolve (← handleIn codec h))
    let o ← need off
    let start ← span p o.toInt n.toInt
    if n < 0 then pure (.data none)
    else
      let m ← memory
      pure (.data ((Memory.read? m (.offset start) 0 n.toNatClampNeg).map Text.hexOfBytes))
  | .write h off data => do
    let d ← need data
    let p ← onStore (Storage.resolve (← handleIn codec h))
    let o ← need off
    let start ← span p o.toInt d.size
    writeAt (.offset start) 0 d
    pure .empty
  | .handleDangling name kind elemName count aborting => do
    let e ← elem elemName
    let _ ← need count
    makeDangling codec name kind e aborting
  | .handleAllocate name kind elemName count zeroed aborting => do
    let e ← elem elemName
    makeAllocated codec name kind e (← need count) zeroed aborting
  | .handleNew name kind elemName count v aborting => do
    let e ← elem elemName
    let _ ← need count
    makeNew codec name kind e (← value e v) aborting
  | .handleFromRaw name kind elemName count h len => do
    let e ← elem elemName
    let _ ← need count
    let hd ← handleIn codec h
    makeFromRaw codec name kind e hd (← need len)
  | .handleInfo name => do info codec name (← slot name)
  | .handleLen name => do pure (.length (← length name).toInt)
  | .handleIsEmpty name => do pure (.emptiness (← emptiness name))
  | .handleRaw name => rawParts codec name
  | .handleResolve name mode => resolveIn name mode
  | .handleWrite name index v => writeThrough name index v
  | .handleDealloc name => free name
  | .handleResize name fn newLen r aborting toSlot =>
    resizeRun codec name fn newLen r aborting toSlot
  | .handleRef name refName => takeRef name refName
  | .refGet refName => readRef refName
  | .refValid refName => do pure (.valid (Ref.valid (← ref refName) (← epoch)))
  | .refZero refName => do
    setRef refName none
    pure (.valid false)
  | .handleCoerce name elemName toSlot => retype codec name elemName toSlot
  | .handleInto name toSlot => convert codec name toSlot
  | .handleCopy name toSlot => copyTo codec name toSlot
  | .compact | .len | .stats | .detailedStats | .map | .release | .collect .. =>
    misuse "unknown or unsupported storage op"
  | .unknown name slotName =>
    if isHandleStepName name then do
      let _ ← slot slotName
      misuse "unknown handle op"
    else misuse ("unknown or unsupported storage op " ++ name)
  | .misread why => misuse why.message

end Step

def runSteps {σ H : Type} [Storage σ H] (codec : Codec H) (manager : Manager σ) :
    Bench σ H → List StoreStep → List Answer
  | _, [] => []
  | b, st :: rest =>
    match EStateM.run (Step.perform codec manager st) b with
    | .ok r b' => .ok r :: runSteps codec manager b' rest
    | .error e b' => .error e :: runSteps codec manager b' rest

/-- Run the steps on a storage, wrapped to remember sizes if asked. -/
def runOn {σ H : Type} [Storage σ H] (codec : Codec H) (manager : Manager σ) (store : σ)
    (sized : Bool) (steps : List StoreStep) : Response :=
  if sized then .results (runSteps codec manager.sized { store := ⟨store, 0⟩ } steps)
  else .results (runSteps codec manager { store := store } steps)

/-- The address storage of a request: an arena over a buffer of exactly the bytes it needs,
    which must lie in `[0, 1048576]`. -/
def addressStore (blockSize blockCount : Int64) : Except Failure AddressStore := do
  let size ← (Arena.neededBytes blockSize blockCount).mapError .fault
  if size < 0 || maxBuffer < size then misuse "arena must lie in [0, 1048576] bytes"
  else
    let a ← (Arena.create true size 8 blockSize blockCount).mapError .fault
    pure { arena := a }

def inlineElems : List Elem := [.u8, .u16, .u32, .u64, .b3, .w2]

def storeResponse (kind : StoreKind) (sized : Bool) (steps : List StoreStep) : Response :=
  match kind with
  | .block blockSize blockCount flags refuses empty =>
    match BlockStore.create (.pinned refuses empty) blockSize blockCount
        flags with
    | .error (f, n) => .refused f n
    | .ok s => runOn blockCodec blockManager s sized steps
  | .address blockSize blockCount =>
    match addressStore blockSize blockCount with
    | .error e => .single (.error e)
    | .ok s => runOn addressCodec addressManager s sized steps
  | .inline elemName capacity =>
    match inlineElems.find? (·.name == elemName) with
    | none => .single (misuse "unknown inline elem")
    | some e =>
      match InlineStore.create e capacity with
      | .error f => .single (failWith f)
      | .ok s => runOn inlineCodec inlineManager s sized steps
  | .unknown _ => .single (misuse "unknown storage kind")

end Session

end BlockArena
