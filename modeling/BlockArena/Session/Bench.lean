import BlockArena.Handle.Ref
import BlockArena.Handle.Slice
import BlockArena.Handle.Sliced
import BlockArena.Handle.Typed
import BlockArena.Handle.Unique
import BlockArena.Session.Request
import BlockArena.Text.Hex

/-! # A storage under test

A storage request keeps one storage, handles in named slots and references in named refs. A
step runs in `Step σ H`: it changes the bench, and fails with a misuse or with a fault of the
storage; in both cases the bench keeps every change made before the failure.

Handles appear in answers as tokens: a number, an address, or a word. Addresses are offsets
into the storage's buffer when they lie within it (its end included), `dangling` for the
dangling address, and `foreign` for anything else.
-/

set_option autoImplicit false

namespace BlockArena

namespace Session

/-- A handle in a slot. -/
inductive Held (H : Type) where
  | typed (t : Typed H)
  | slice (s : Slice H)
  | sliced (s : Sliced H)
  | unique (u : Unique H)
  | uslice (u : UniqueSlice H)
  deriving Inhabited, Repr

def Held.elem {H : Type} : Held H → Elem
  | .typed t => t.elem
  | .slice s => s.elem
  | .sliced s => s.elem
  | .unique u => u.inner.elem
  | .uslice u => u.inner.elem

/-- How the handles of a storage are written in answers and read from steps. -/
structure Codec (H : Type) where
  /-- The token of a handle, given the size of the storage's buffer. -/
  encode : Nat → H → Token
  /-- The handle a token names, given the size of the storage's buffer, or why it names
      none. -/
  decode : Nat → Token → Except String H

/-- A storage with its slots and references. -/
structure Bench (σ H : Type) where
  store : σ
  slots : List (String × Held H) := []
  refs : List (String × Option Ref) := []

abbrev Step (σ H α : Type) := EStateM Failure (Bench σ H) α

/-- The token of an address in a buffer of `size` bytes. -/
def Token.ofPointer (size : Nat) : Addr → Token
  | .null => .none
  | .dangling => .word "dangling"
  | .offset off => if 0 ≤ off && off ≤ size then .num off else .word "foreign"

/-- The hex text of the bytes behind a view: empty when there are none, nothing when they do
    not all lie in the buffer. -/
def viewData (m : Space) (v : View) : Option String :=
  if v.bytes = 0 then some ""
  else if v.bytes < 0 then none
  else (Memory.read? m v.ptr 0 v.bytes.toNat).map Text.hexOfBytes

namespace Step

variable {σ H : Type} [Storage σ H]

def misuse {α : Type} (message : String) : Step σ H α := throw (.misuse message)

def fault {α : Type} (f : Fault) : Step σ H α := throw (.fault f)

def ofExcept {α : Type} : Except Fault α → Step σ H α
  | .ok a => pure a
  | .error f => fault f

/-- Run a storage operation, keeping what it changed also when it fails. -/
def onStore {α : Type} (act : Act σ α) : Step σ H α := fun b =>
  match act b.store with
  | .ok a s => .ok a { b with store := s }
  | .error f s => .error (.fault f) { b with store := s }

/-- Write a handle over the first entry of slot `name`, where it stands. -/
def putSlot (name : String) (h : Held H) : List (String × Held H) → List (String × Held H)
  | [] => []
  | (k, h') :: rest => if name == k then (k, h) :: rest else (k, h') :: putSlot name h rest

/-- Call a method of the owner `o` held in slot `name`: the method runs on the storage and the
    owner, and both are kept, also when it fails. -/
def onOwner {O α : Type} (name : String) (wrap : O → Held H) (o : O) (act : Act (σ × O) α) :
    Step σ H α := fun b =>
  match act (b.store, o) with
  | .ok a p => .ok a { b with store := p.1, slots := putSlot name (wrap p.2) b.slots }
  | .error f p =>
    .error (.fault f) { b with store := p.1, slots := putSlot name (wrap p.2) b.slots }

/-- The value of a member as it was read, or fail with why it could not be read. -/
def need {α : Type} (f : Field α) : Step σ H α :=
  match required f with
  | .ok a => pure a
  | .error e => throw e

def slot (name : String) : Step σ H (Held H) := do
  match (← get).slots.lookup name with
  | some h => pure h
  | none => misuse "no such slot"

def setSlot (name : String) (h : Held H) : Step σ H Unit :=
  modify fun b => { b with slots := (name, h) :: b.slots.filter (·.1 != name) }

def ref (name : String) : Step σ H (Option Ref) := do
  match (← get).refs.lookup name with
  | some r => pure r
  | none => misuse "no such ref"

def setRef (name : String) (r : Option Ref) : Step σ H Unit :=
  modify fun b => { b with refs := (name, r) :: b.refs.filter (·.1 != name) }

def epoch : Step σ H UInt64 := do pure (Storage.epoch (← get).store)

def memory : Step σ H Space := do pure (Storage.memory (← get).store)

def token (codec : Codec H) (h : H) : Step σ H Token := do
  pure (codec.encode (← memory).size h)

def pointer (p : Addr) : Step σ H Token := do
  pure (Token.ofPointer (← memory).size p)

def handleOf (codec : Codec H) (t : Token) : Step σ H H := do
  match codec.decode (← memory).size t with
  | .ok h => pure h
  | .error m => misuse m

/-- The handle a handle member names, reading both of its parts. -/
def handleIn (codec : Codec H) (h : HandleField) : Step σ H H := do
  handleOf codec (← need (← need h))

def elem (name : String) : Step σ H Elem :=
  match Elem.ofName? name with
  | some e => pure e
  | none => misuse "unknown elem"

/-- Refuse a step that this kind of handle does not support. -/
def unavailable {α : Type} : Step σ H α := misuse "operation not available for this handle kind"

/-- Refuse a step that needs a storage recording sizes, when this one does not. -/
def needSliced : Step σ H Unit :=
  if Storage.isSliced (σ := σ) then pure () else misuse "storage is not sliced"

/-- The bytes of a value member for an element type: they must be read, and be exactly the
    element's size. -/
def value (e : Elem) (v : Field ByteArray) : Step σ H ByteArray := do
  let bytes ← need v
  if bytes.size = e.size.toNatClampNeg then pure bytes
  else misuse (Wire.Misread.wrongSize "value" e.size.toInt).message

/-- The answer of a resolved view: its address, its length for runs, and its bytes when
    asked for. -/
def resolved (v : View) (withLen withData : Bool) : Step σ H Reply := do
  let p ← pointer v.ptr
  let m ← memory
  let data := if withData then some (viewData m v) else none
  pure (.resolved p (if withLen then v.len.map (·.toInt) else none) data)

end Step

end Session

end BlockArena
