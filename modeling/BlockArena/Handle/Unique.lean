import BlockArena.Handle.Slice
import BlockArena.Handle.Typed

/-! # Single-owner handles

A `Unique` handle owns a `Typed` one and a `UniqueSlice` owns a `Slice`. Their methods run on
the storage and the owner together, as calls on a receiver held by pointer. Each checks the
owner first and, once it is consumed, aborts with `Fault.consumed`, naming the method as
`Unique::Resolve`, `UniqueSlice::TryGrow` and so on. Giving up ownership and freeing mark the
owner consumed before the handle is used, so the mark stays when the storage aborts. A resize
of a unique run acts on a copy of the run and consumes the owner only once that succeeds,
answering a fresh owner of the new run.
-/

set_option autoImplicit false

namespace BlockArena

/-- A single owner of a handle to one element. -/
structure Unique (H : Type) where
  inner : Typed H
  consumed : Bool := false
  deriving Inhabited, Repr

/-- A single owner of a run that carries its length. -/
structure UniqueSlice (H : Type) where
  inner : Slice H
  consumed : Bool := false
  deriving Inhabited, Repr

def checkOwner (consumed : Bool) (op : String) : Except Fault Unit :=
  if consumed then .error (.consumed op) else .ok ()

def onStorage {σ O α : Type} (act : Act σ α) : Act (σ × O) α :=
  Act.focus Prod.fst (fun p s => (s, p.2)) act

/-- A method call on an owner: `check` refuses it once the owner is consumed, and a call that
    `consumes` marks the owner before `act` runs on the storage with it. -/
def ownerCall {σ O α : Type} (check : O → Except Fault Unit) (mark : O → O) (consumes : Bool)
    (act : O → Act σ α) : Act (σ × O) α := do
  let o := (← get).2
  Act.ofExcept (check o)
  if consumes then modify fun p => (p.1, mark p.2)
  onStorage (act o)

namespace Unique

variable {σ H : Type} [Storage σ H]

def opName (method : String) : String := "Unique::" ++ method

def check (u : Unique H) (method : String) : Except Fault Unit :=
  checkOwner u.consumed (opName method)

/-- The methods of an owner of one element, by what they answer. -/
inductive Method (H : Type) : Type → Type
  | intoTypedSingle : Method H (Typed H)
  | deallocate : Method H Unit
  /-- `ResolveRaw`, or `ResolveRawMut` when `mutable`. -/
  | resolveRaw (mutable : Bool) : Method H Addr
  /-- `Resolve`, or `ResolveMut` when `mutable`. -/
  | resolve (mutable : Bool) : Method H View
  | ref : Method H View

namespace Method

def name {α : Type} : Method H α → String
  | .intoTypedSingle => "IntoTypedSingle"
  | .deallocate => "Deallocate"
  | .resolveRaw mutable => if mutable then "ResolveRawMut" else "ResolveRaw"
  | .resolve mutable => if mutable then "ResolveMut" else "Resolve"
  | .ref => "Ref"

/-- Giving up ownership and freeing consume the owner. -/
def consumes {α : Type} : Method H α → Bool
  | .intoTypedSingle | .deallocate => true
  | _ => false

/-- What the method does with the handle the owner holds. -/
def onInner {α : Type} : Method H α → Typed H → Act σ α
  | .intoTypedSingle, t => pure t
  | .deallocate, t => t.deallocate
  | .resolveRaw _, t => t.resolveRaw
  | .resolve _, t => t.resolve
  | .ref, t => t.resolve

end Method

def call {α : Type} (m : Method H α) : Act (σ × Unique H) α :=
  ownerCall (fun u => u.check m.name) (fun u => { u with consumed := true }) m.consumes
    (fun u => m.onInner u.inner)

end Unique

namespace UniqueSlice

variable {σ H : Type} [Storage σ H]

def opName (method : String) : String := "UniqueSlice::" ++ method

def check (u : UniqueSlice H) (method : String) : Except Fault Unit :=
  checkOwner u.consumed (opName method)

/-- The method name of a resize: `TryGrow`, `ShrinkRegionZeroed` and so on. -/
def resizeMethod (aborting : Bool) (form : ResizeForm) : String :=
  (if aborting then "" else "Try") ++ form.name

/-- The methods of an owner of a run other than its resizes, by what they answer. -/
inductive Method (H : Type) : Type → Type
  | intoTypedSlice : Method H (Slice H)
  | len : Method H Int64
  | isEmpty : Method H Bool
  | deallocate : Method H Unit
  /-- `Resolve`, or `ResolveMut` when `mutable`. -/
  | resolve (mutable : Bool) : Method H View
  | ref : Method H View

namespace Method

def name {α : Type} : Method H α → String
  | .intoTypedSlice => "IntoTypedSlice"
  | .len => "Len"
  | .isEmpty => "IsEmpty"
  | .deallocate => "Deallocate"
  | .resolve mutable => if mutable then "ResolveMut" else "Resolve"
  | .ref => "Ref"

def consumes {α : Type} : Method H α → Bool
  | .intoTypedSlice | .deallocate => true
  | _ => false

def onInner {α : Type} : Method H α → Slice H → Act σ α
  | .intoTypedSlice, s => pure s
  | .len, s => pure s.len
  | .isEmpty, s => pure s.isEmpty
  | .deallocate, s => s.deallocate
  | .resolve _, s => s.resolve
  | .ref, s => s.resolve

end Method

def call {α : Type} (m : Method H α) : Act (σ × UniqueSlice H) α :=
  ownerCall (fun u => u.check m.name) (fun u => { u with consumed := true }) m.consumes
    (fun u => m.onInner u.inner)

/-- Resize the owned run to `newLen` elements, in the `try` form or the aborting one. The copy of
    the run is resized first; only then is the owner consumed, and the answer is a fresh owner of
    the new run. -/
def resize (aborting : Bool) (newLen : Int64) (form : ResizeForm) :
    Act (σ × UniqueSlice H) (UniqueSlice H) := do
  let u := (← get).2
  Act.ofExcept (u.check (resizeMethod aborting form))
  let s ← onStorage (Handle.formOf aborting (Handle.failureLayout u.inner.elem newLen)
    (u.inner.tryResize newLen form))
  modify fun p => (p.1, { p.2 with consumed := true })
  pure ⟨s, false⟩

end UniqueSlice

end BlockArena
