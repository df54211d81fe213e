import BlockArena.Session.Bench
import BlockArena.Session.Request

/-! # Handle steps

The steps that make, inspect, resolve, write, free and resize typed handles in named slots,
and take and read references. Which kinds of handle a step supports is part of the request
language: an unsupported kind is a misuse, checked before the handle is used. The requests on
the storage run in their `try…` or aborting form as the step asks.

A step on a slot looks the slot up before it reads its other members. A step that makes a
handle reads the element type, then the count, then its own members, and names the kind of
handle last; a kind of no known name is not available.

A run whose length the storage records can be made without asking the storage for lengths, by
a dangling handle or from a storage handle; it is put in its slot before it is described, so
that on a storage that records no lengths the slot is filled and the step still fails. Every
use that needs the length, or memory, fails there in the same way.
-/

set_option autoImplicit false

namespace BlockArena

namespace Session

namespace Step

variable {σ H : Type} [Storage σ H]

/-- How a step resolves a handle. -/
inductive ResolveMode where
  | plain
  | mutable
  | raw
  | rawMutable
  deriving DecidableEq, Inhabited, Repr

/-- The mode a step names; every name other than the three below means the plain mode. -/
def ResolveMode.ofName : String → ResolveMode
  | "mut" => .mutable
  | "raw" => .raw
  | "raw_mut" => .rawMutable
  | _ => .plain

def ResolveMode.method : ResolveMode → String
  | .plain => "Resolve"
  | .mutable => "ResolveMut"
  | .raw => "ResolveRaw"
  | .rawMutable => "ResolveRawMut"

/-- Raw modes answer the address only. -/
def ResolveMode.isRaw (m : ResolveMode) : Bool := m == .raw || m == .rawMutable

def ResolveMode.isMutable (m : ResolveMode) : Bool := m == .mutable || m == .rawMutable

/-- The description of a handle: kind, element, storage handle and length as each kind
    reports them; an owner of a run, in slot `name`, is asked for its length. -/
def info (codec : Codec H) (name : String) : Held H → Step σ H Reply
  | .typed t => do pure (.info "typed" t.elem.name (some (← token codec t.raw)) none)
  | .slice s => do pure (.info "slice" s.elem.name (some (← token codec s.raw)) (some s.len.toInt))
  | .sliced s => do
    needSliced
    let n ← onStore s.len
    pure (.info "sliced" s.elem.name (some (← token codec s.raw)) (some n.toInt))
  | .unique u => pure (.info "unique" u.inner.elem.name none none)
  | .uslice u => do
    let n ← onOwner name .uslice u (UniqueSlice.call .len)
    pure (.info "uslice" u.inner.elem.name none (some n.toInt))

def place (codec : Codec H) (name : String) (h : Held H) : Step σ H Reply := do
  setSlot name h
  info codec name h

def makeDangling (codec : Codec H) (name kind : String) (e : Elem) (aborting : Bool) :
    Step σ H Reply := do
  let run := fun {α : Type} (act : Act σ α) => onStore (Handle.formOf aborting e.layout act)
  match kind with
  | "typed" => place codec name (.typed (← run (Typed.tryDangling e)))
  | "slice" => place codec name (.slice (← run (Slice.tryDangling e)))
  | "sliced" => place codec name (.sliced (← run (Sliced.tryDangling e)))
  | _ => unavailable

def makeAllocated (codec : Codec H) (name kind : String) (e : Elem) (count : Int64)
    (zeroed aborting : Bool) : Step σ H Reply := do
  let one := fun {α : Type} (act : Act σ α) => onStore (Handle.formOf aborting e.layout act)
  let run := fun {α : Type} (act : Act σ α) =>
    onStore (Handle.formOf aborting (Handle.failureLayout e count) act)
  match kind with
  | "typed" => place codec name (.typed (← one (Typed.tryAllocate e zeroed)))
  | "slice" => place codec name (.slice (← run (Slice.tryAllocate e count zeroed)))
  | "sliced" =>
    needSliced
    place codec name (.sliced (← run (Sliced.tryAllocate e count zeroed)))
  | "unique" => place codec name (.unique ⟨← one (Typed.tryAllocate e zeroed), false⟩)
  | "uslice" => place codec name (.uslice ⟨← run (Slice.tryAllocate e count zeroed), false⟩)
  | _ => unavailable

/-- A fresh allocation holding a value of the element's size. -/
def makeNew (codec : Codec H) (name kind : String) (e : Elem) (v : ByteArray)
    (aborting : Bool) : Step σ H Reply := do
  let run := fun {α : Type} (act : Act σ α) => onStore (Handle.formOf aborting e.layout act)
  match kind with
  | "typed" => place codec name (.typed (← run (Typed.tryNew e v)))
  | "unique" => place codec name (.unique ⟨← run (Typed.tryNew e v), false⟩)
  | _ => unavailable

/-- A handle made from a storage handle and, for runs that carry one, a length. -/
def makeFromRaw (codec : Codec H) (name kind : String) (e : Elem) (h : H) (len : Int64) :
    Step σ H Reply := do
  match kind with
  | "typed" => place codec name (.typed ⟨e, h⟩)
  | "slice" => place codec name (.slice ⟨e, h, len⟩)
  | "sliced" => place codec name (.sliced ⟨e, h⟩)
  | "unique" => place codec name (.unique ⟨⟨e, h⟩, false⟩)
  | "uslice" => place codec name (.uslice ⟨⟨e, h, len⟩, false⟩)
  | _ => unavailable

def length (name : String) : Step σ H Int64 := do
  match ← slot name with
  | .slice s => pure s.len
  | .sliced s =>
    needSliced
    onStore s.len
  | .uslice u => onOwner name .uslice u (UniqueSlice.call .len)
  | _ => unavailable

def emptiness (name : String) : Step σ H Bool := do
  match ← slot name with
  | .slice s => pure s.isEmpty
  | .sliced s =>
    needSliced
    pure ((← onStore s.len) == 0)
  | .uslice u => onOwner name .uslice u (UniqueSlice.call .isEmpty)
  | _ => unavailable

/-- The storage handle of a handle, with the length of a run that carries one. -/
def rawParts (codec : Codec H) (name : String) : Step σ H Reply := do
  match ← slot name with
  | .typed t => pure (.raw (← token codec t.raw) none)
  | .slice s => pure (.raw (← token codec s.raw) (some s.len.toInt))
  | .sliced s => pure (.raw (← token codec s.raw) none)
  | _ => unavailable

def resolveIn (name mode : String) : Step σ H Reply := do
  let h ← slot name
  let m := ResolveMode.ofName mode
  match h with
  | .typed t => resolved (← onStore t.resolve) false (!m.isRaw)
  | .slice s =>
    if m.isRaw then resolved ⟨← onStore s.resolveRaw, none, 0⟩ false false
    else resolved (← onStore s.resolve) true true
  | .sliced s =>
    needSliced
    if m.isRaw then
      let (p, n) ← onStore s.resolveRaw
      resolved ⟨p, some n, 0⟩ true false
    else resolved (← onStore s.resolve) true true
  | .unique u =>
    if m.isRaw then
      let p ← onOwner name .unique u (Unique.call (.resolveRaw m.isMutable))
      resolved ⟨p, none, u.inner.elem.size.toInt⟩ false false
    else resolved (← onOwner name .unique u (Unique.call (.resolve m.isMutable))) false true
  | .uslice u =>
    if m.isRaw then unavailable
    else resolved (← onOwner name .uslice u (UniqueSlice.call (.resolve m.isMutable))) true true

/-- Write one element's bytes at `off` past an address, refusing writes outside the buffer. -/
def writeAt (p : Addr) (off : Int) (v : ByteArray) : Step σ H Unit := do
  if v.size = 0 then pure ()
  else
    let m ← memory
    match Memory.read? m p off v.size with
    | some _ =>
      modify fun b => { b with store := Storage.setMemory b.store (Memory.write m p off v) }
    | none => misuse "refusing to write outside the storage buffer"

/-- Write element `index` of a resolved run, which must be one of its elements. -/
def writeElement (v : View) (e : Elem) (index : Int64) (bytes : ByteArray) : Step σ H Unit := do
  let len := v.len.getD 0
  if index < 0 || len ≤ index then fault (.indexOutOfRange index.toInt len.toNatClampNeg)
  else writeAt v.ptr (index.toInt * e.size.toInt) bytes

/-- Write one element through a handle: the slot is looked up first, then the value is read
    and measured against the element, then the index is read, whatever the kind. -/
def writeThrough (name : String) (indexField : Field Int64) (bytes : Field ByteArray) :
    Step σ H Reply := do
  let h ← slot name
  let v ← value h.elem bytes
  let index ← need indexField
  match h with
  | .typed t => writeAt (← onStore t.resolveRaw) 0 v
  | .unique u => writeAt (← onOwner name .unique u (Unique.call (.resolve true))).ptr 0 v
  | .slice s => writeElement (← onStore s.resolve) s.elem index v
  | .sliced s =>
    needSliced
    writeElement (← onStore s.resolve) s.elem index v
  | .uslice u =>
    writeElement (← onOwner name .uslice u (UniqueSlice.call (.resolve true))) u.inner.elem index v
  pure .empty

/-- Free a handle's allocation; owners are consumed first. -/
def free (name : String) : Step σ H Reply := do
  match ← slot name with
  | .typed t => onStore t.deallocate
  | .slice s => onStore s.deallocate
  | .sliced s =>
    needSliced
    onStore s.deallocate
  | .unique u => onOwner name .unique u (Unique.call .deallocate)
  | .uslice u => onOwner name .uslice u (UniqueSlice.call .deallocate)
  pure .empty

/-- The resize form a name gives, keeping the region for the forms that use one. -/
def resizeForm (fn : String) (region : Region) : Step σ H ResizeForm :=
  match ResizeForm.partsOf? fn with
  | none => misuse "unknown resize fn"
  | some (grow, zeroed, withRegion) => pure ⟨grow, zeroed, if withRegion then some region else none⟩

/-- Resize a run. After the slot, the new length and then the region are read, whatever the
    form and kind. A run that carries or reads its length is then copied to `toSlot` if one is
    named, and the copy is resized there, so the slot it came from keeps the old value; the copy
    is made before the form's name is checked. A unique run is resized on a copy: on success the
    old owner is consumed and the new one goes to `toSlot`, or to the same slot. -/
def resizeRun (codec : Codec H) (name fn : String) (newLen : Field Int64) (r : Field Region)
    (aborting : Bool) (toSlot : Option String) : Step σ H Reply := do
  let h ← slot name
  let n ← need newLen
  let region ← need r
  let run := fun {α : Type} (e : Elem) (n : Int64) (act : Act σ α) =>
    onStore (Handle.formOf aborting (Handle.failureLayout e n) act)
  let target := toSlot.getD name
  match h with
  | .slice s =>
    setSlot target h
    let form ← resizeForm fn region
    place codec target (.slice (← run s.elem n (s.tryResize n form)))
  | .sliced s =>
    setSlot target h
    needSliced
    let form ← resizeForm fn region
    place codec target (.sliced (← run s.elem n (s.tryResize n form)))
  | .uslice u =>
    let form ← resizeForm fn region
    place codec target (.uslice (← onOwner name .uslice u (UniqueSlice.resize aborting n form)))
  | _ => unavailable

/-- Resolve a handle and keep the result as a reference taken in the current epoch. -/
def takeRef (name refName : String) : Step σ H Reply := do
  let v ← match ← slot name with
    | .typed t => onStore t.resolve
    | .slice s => onStore s.resolve
    | .sliced s => do
      needSliced
      onStore s.resolve
    | .unique u => onOwner name .unique u (Unique.call .ref)
    | .uslice u => onOwner name .uslice u (UniqueSlice.call .ref)
  let r : Ref := ⟨v, ← epoch⟩
  setRef refName (some r)
  pure (.valid (Ref.valid (some r) (← epoch)))

/-- Read a reference back, while the storage is still in its epoch. -/
def readRef (refName : String) : Step σ H Reply := do
  let v ← ofExcept (Ref.get (← ref refName) (← epoch))
  resolved v v.len.isSome true

/-- View a handle as another element type, into `toSlot` or the same slot. -/
def retype (codec : Codec H) (name elemName : String) (toSlot : Option String) :
    Step σ H Reply := do
  let h ← slot name
  let e ← elem elemName
  let target := toSlot.getD name
  match h with
  | .typed t => place codec target (.typed (← ofExcept (t.coerce e)))
  | .sliced s => place codec target (.sliced (← ofExcept (s.cast e)))
  | _ => unavailable

/-- Move a handle between its plain and owning forms, into `toSlot` or the same slot. -/
def convert (codec : Codec H) (name : String) (toSlot : Option String) : Step σ H Reply := do
  let target := toSlot.getD name
  match ← slot name with
  | .unique u =>
    place codec target (.typed (← onOwner name .unique u (Unique.call .intoTypedSingle)))
  | .uslice u =>
    place codec target (.slice (← onOwner name .uslice u (UniqueSlice.call .intoTypedSlice)))
  | .typed t => place codec target (.unique ⟨t, false⟩)
  | .slice s => place codec target (.uslice ⟨s, false⟩)
  | .sliced _ => unavailable

def copyTo (codec : Codec H) (name : String) (toSlot : Option String) : Step σ H Reply := do
  let target := toSlot.getD name
  match ← slot name with
  | .typed t => place codec target (.typed t)
  | .slice s => place codec target (.slice s)
  | .sliced s => place codec target (.sliced s)
  | _ => unavailable

end Step

end Session

end BlockArena
