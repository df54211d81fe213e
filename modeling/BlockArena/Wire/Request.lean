import BlockArena.Session.Request
import BlockArena.Wire.Fields

/-! # Reading requests

`Wire.request` reads a request from its JSON value. The members of a request are read in the
order the request language lists them, and the first one that cannot be read answers the
whole request. The members of a step are read the same way, but a step that cannot be read
answers only itself (`misread`): the steps before and after it still run. A step of no known
name reads none of its members.

Members that a step uses one at a time are kept as they were read (`Session.Field`), and the
step reports their misreads when it uses them.

How a storage handle is read depends on the kind of storage: a block handle is a number that
must be an unsigned word; an address handle is `null`, `"dangling"`, or a number that must be
a signed word; the inline handle may be anything at all. Whether the member has such a form is
read apart from whether its number is a word of its kind.
-/

set_option autoImplicit false

namespace BlockArena

namespace Wire

open Session

/-- The value of a member, `null` when it is missing. -/
def Value.member (v : Value) (k : String) : Value := (v.field? k).getD .null

def statsStep (x : Value) : Except Misread StatsStep :=
  match x.text "op" with
  | "free_run" => do pure (.freeRun (← x.signed "bytes"))
  | "add" => do
    let base : Stats := ⟨← x.signed "arena_count", ← x.signed "allocation_count",
      ← x.signed "arena_bytes", ← x.signed "allocation_bytes"⟩
    pure (.add base (← (x.items "free_runs").mapM Value.toSigned))
  | "clear" => pure .clear
  | "clear_base" => pure .clearBase
  | o => pure (.unknown o)

def wordCall (v : Value) : Except Misread WordCall :=
  match v.text "fn" with
  | "check_pow2" => do pure (.checkPow2 (← v.signed "a") (v.text "name"))
  | "check_pow2_uint" => do pure (.checkPow2Word (← v.unsigned "a") (v.text "name"))
  | "align_up" => do pure (.alignUp (← v.signed "a") (← v.unsigned "b"))
  | "div_ceil" => do pure (.divCeil (← v.signed "a") (← v.signed "b"))
  | "mul_overflows" => do pure (.mulOverflows (← v.signed "a") (← v.signed "b"))
  | "detailed_stats" => do pure (.detailedStats (← (v.items "ops").mapM statsStep))
  | f => pure (.unknown f)

def Value.offset (v : Value) (k : String) : Except Misread Int := do
  pure (← v.signed k).toInt

def arenaStep? (x : Value) : Except Misread ArenaStep :=
  match x.text "op" with
  | "alloc" => do pure (.alloc (← x.layout "layout"))
  | "dealloc" => do pure (.dealloc (← x.offset "offset") (x.layout "layout"))
  | "relocate" => do pure (.relocate (← x.offset "offset") (x.layout "layout"))
  | "grow_in_place" => do
    pure (.growInPlace (← x.offset "offset") (x.layout "old") (x.layout "new"))
  | "shrink_in_place" => do
    pure (.shrinkInPlace (← x.offset "offset") (x.layout "old") (x.layout "new"))
  | "owns" => do pure (.owns (← x.offset "offset") (x.layout "layout"))
  | "is_empty" => pure .isEmpty
  | "stats" => pure .stats
  | "detailed_stats" => pure .detailedStats
  | "map" => pure .map
  | "release" => pure .release
  | "set_alloc_id" => do pure (.setAllocId (← x.unsigned "id"))
  | "alloc_id" => pure .allocId
  | "block_size" => pure .blockSize
  | "block_count" => pure .blockCount
  | "read" => do pure (.read (← x.offset "offset") ((x.signed "len").map (·.toInt)))
  | "write" => do pure (.write (← x.offset "offset") (x.bytes "data"))
  | "collect" => pure (.collect (x.text "namespace") (x.text "name"))
  | o => pure (.unknown o)

def arenaStep (x : Value) : ArenaStep :=
  match arenaStep? x with
  | .ok st => st
  | .error why => .misread (x.text "op") why

def heapStep? (x : Value) : Except Misread HeapStep :=
  match x.text "op" with
  | "alloc" => do pure (.alloc (← x.layout "layout"))
  | "dealloc" => do pure (.dealloc (← x.offset "id") (x.layout "layout"))
  | "owns" => do pure (.owns (← x.offset "id") (x.layout "layout"))
  | "stats" => pure .stats
  | "set_alloc_id" => do pure (.setAllocId (← x.unsigned "id"))
  | "alloc_id" => pure .allocId
  | "collect" => pure (.collect (x.text "namespace") (x.text "name"))
  | o => pure (.unknown o)

def heapStep (x : Value) : HeapStep :=
  match heapStep? x with
  | .ok st => st
  | .error why => .misread why

def handleReader (kind : String) (x : Value) : HandleField :=
  match kind with
  | "block" =>
    match x with
    | .num _ => .ok (x.toUnsigned.map fun u => .num u.toNat)
    | _ => .error (.notInteger x.plain)
  | "alloc" =>
    match x with
    | .null => .ok (.ok .none)
    | .str "dangling" => .ok (.ok (.word "dangling"))
    | .num _ => .ok (x.toSigned.map fun i => .num i.toInt)
    | _ => .error (.badHandle "alloc" x.plain)
  | _ => .ok (.ok (.word "inline"))

/-- The target slot a step names, if it names one that is not empty. -/
def Value.slotOpt (x : Value) (k : String) : Option String :=
  let s := x.text k
  if s.isEmpty then none else some s

/-- The resize form a raw storage step names, with its region when the form keeps one. -/
def resizeForm (x : Value) (grow zeroed withRegion : Bool) : Session.Field ResizeForm :=
  if withRegion then (x.region "region").map fun r => ⟨grow, zeroed, some r⟩
  else .ok ⟨grow, zeroed, none⟩

/-- The members of a storage step, with handles read by `handle`. -/
def storeStep? (handle : Value → HandleField) (x : Value) : Except Misread StoreStep :=
  let h := handle (x.member "handle")
  let op := x.text "op"
  match ResizeForm.partsOf? op with
  | some (grow, zeroed, withRegion) =>
    pure (.resize h (x.layout "old") (x.layout "new") (resizeForm x grow zeroed withRegion))
  | none =>
  match op with
  | "allocate" => do pure (.allocate (← x.layout "layout") false)
  | "allocate_zeroed" => do pure (.allocate (← x.layout "layout") true)
  | "deallocate" => pure (.deallocate h (x.layout "layout"))
  | "dangling" => do pure (.dangling (← x.unsigned "align"))
  | "resolve" | "resolve_mut" => pure (.resolve h)
  | "resolve_size" => pure (.resolveSize h)
  | "resolve_sliced" => pure (.resolveSliced h)
  | "epoch" => pure .epoch
  | "address_stable" => pure .addressStable
  | "read" => pure (.read h (x.signed "offset") (x.signed "len"))
  | "write" => pure (.write h (x.signed "offset") (x.bytes "data"))
  | "compact" => pure .compact
  | "len" => pure .len
  | "stats" => pure .stats
  | "detailed_stats" => pure .detailedStats
  | "map" => pure .map
  | "release" => pure .release
  | "collect" => pure (.collect (x.text "namespace") (x.text "name"))
  | "h_dangling" =>
    pure (.handleDangling (x.text "slot") (x.text "kind") (x.text "elem") (x.signed "count")
      (!x.flag "try"))
  | "h_allocate" =>
    pure (.handleAllocate (x.text "slot") (x.text "kind") (x.text "elem") (x.signed "count")
      (x.flag "zeroed") (!x.flag "try"))
  | "h_new" =>
    pure (.handleNew (x.text "slot") (x.text "kind") (x.text "elem") (x.signed "count")
      (x.bytes "value") (!x.flag "try"))
  | "h_from_raw" =>
    pure (.handleFromRaw (x.text "slot") (x.text "kind") (x.text "elem") (x.signed "count") h
      (x.signed "len"))
  | "h_info" => pure (.handleInfo (x.text "slot"))
  | "h_len" => pure (.handleLen (x.text "slot"))
  | "h_is_empty" => pure (.handleIsEmpty (x.text "slot"))
  | "h_raw" => pure (.handleRaw (x.text "slot"))
  | "h_resolve" => pure (.handleResolve (x.text "slot") (x.text "mode"))
  | "h_write" => pure (.handleWrite (x.text "slot") (x.signed "index") (x.bytes "value"))
  | "h_dealloc" => pure (.handleDealloc (x.text "slot"))
  | "h_resize" =>
    pure (.handleResize (x.text "slot") (x.text "fn") (x.signed "new_len") (x.region "region")
      (!x.flag "try") (x.slotOpt "to_slot"))
  | "h_ref" => pure (.handleRef (x.text "slot") (x.text "ref"))
  | "ref_get" => pure (.refGet (x.text "ref"))
  | "ref_valid" => pure (.refValid (x.text "ref"))
  | "ref_zero" => pure (.refZero (x.text "ref"))
  | "h_coerce" => pure (.handleCoerce (x.text "slot") (x.text "elem") (x.slotOpt "to_slot"))
  | "h_into" => pure (.handleInto (x.text "slot") (x.slotOpt "to_slot"))
  | "h_copy" => pure (.handleCopy (x.text "slot") (x.slotOpt "to_slot"))
  | o => pure (.unknown o (x.text "slot"))

def storeStep (handle : Value → HandleField) (x : Value) : StoreStep :=
  match storeStep? handle x with
  | .ok st => st
  | .error why => .misread why

def storeKind (v : Value) : Except Misread StoreKind :=
  match v.text "kind" with
  | "block" => do
    let flags ← v.signed "flags"
    let blockSize ← v.signed "block_size"
    let blockCount ← v.signed "block_count"
    pure (.block blockSize blockCount flags.toInt32 (v.flag "parent_fail") (v.flag "parent_nil"))
  | "alloc" => do pure (.address (← v.signed "block_size") (← v.signed "num_blocks"))
  | "inline" => do pure (.inline (v.text "elem") (← v.signed "capacity"))
  | k => pure (.unknown k)

def arenaSpec (v : Value) : Except Misread ArenaSpec := do
  let blockSize ← v.signed "block_size"
  let blockCount ← v.signed "num_blocks"
  let _ ← v.signed "flags"
  pure { blockSize := blockSize, blockCount := blockCount, bufferSize := v.signed? "buffer_size",
         noBuffer := v.flag "null_buffer", onHeap := v.flag "composable" }

def request? (v : Value) : Except Misread Request :=
  match v.text "op" with
  | "memutils" => do pure (.word (← wordCall v))
  | "layout" => do
    let withSize := if v.has "with_size" then some (v.signed "with_size") else none
    pure (.layout (← v.signed "size") (← v.unsigned "align") withSize)
  | "array_layout" => pure (.arrayLayout (v.text "elem") (v.signed "count"))
  | "calc_needed" => do pure (.neededBytes (← v.signed "block_size") (← v.signed "num_blocks"))
  | "region" => do
    let r : Region := ⟨← v.signed "src", ← v.signed "dst", ← v.signed "size"⟩
    pure (.region r (← v.signed "elem_size") (← v.signed "old_len") (← v.signed "new_len"))
  | "dangling_pointer" => do pure (.danglingPointer (← v.unsigned "align"))
  | "flags_string" => do pure (.flagsText (v.text "type") (← v.signed "value").toInt32)
  | "failure_message" => do pure (.failureMessage (← v.layout "layout"))
  | "bitmap" => do pure (.arena (← arenaSpec v) ((v.items "ops").map arenaStep))
  | "heap" => pure (.heap ((v.items "ops").map heapStep))
  | "storage" => do
    let kind ← storeKind v
    let reader := handleReader (v.text "kind")
    pure (.store kind (v.flag "sized") ((v.items "ops").map (storeStep reader)))
  | o => pure (.unknown o)

def request (v : Value) : Request :=
  match request? v with
  | .ok r => r
  | .error why => .misread why

end Wire

end BlockArena
