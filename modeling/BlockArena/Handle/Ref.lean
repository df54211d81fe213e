import BlockArena.Handle.Basic

/-! # References checked by epoch

A reference is a resolved handle together with the epoch of the storage it was resolved in.
Reading it back is allowed only while the storage is still in that epoch: any change to the
storage may have moved the memory behind it. A reference that was never resolved reads as
never resolved.
-/

set_option autoImplicit false

namespace BlockArena

/-- A view taken in an epoch of its storage. -/
structure Ref where
  view : View
  epoch : UInt64
  deriving DecidableEq, Inhabited, Repr

namespace Ref

/-- The view of a reference, while the storage is still in its epoch. -/
def get (r : Option Ref) (current : UInt64) : Except Fault View :=
  match r with
  | none => .error .neverResolved
  | some r => if r.epoch = current then .ok r.view else .error (.staleEpoch r.epoch current)

def valid (r : Option Ref) (current : UInt64) : Bool :=
  match r with
  | none => false
  | some r => r.epoch == current

end Ref

end BlockArena
