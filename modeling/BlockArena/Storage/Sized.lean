import BlockArena.Storage.Basic

/-! # Remembering the size of one allocation

`Sized σ` wraps a storage that is used for one allocation at a time and remembers the usable
size of that allocation, which makes any storage one that records sizes. The size is taken
from every successful allocation and resize, and reset to `0` by a free that completes. A
resize in a zeroed form is the wrapped storage's own, clearing included, and its size is taken
only once the clearing is done. Everything else is the wrapped storage's.
-/

set_option autoImplicit false

namespace BlockArena

/-- A storage together with the usable size of its one allocation. -/
structure Sized (σ : Type) where
  inner : σ
  size : Int64 := 0

namespace Sized

variable {σ H : Type} [Storage σ H]

def onInner {α : Type} (act : Act σ α) : Act (Sized σ) α :=
  Act.focus (·.inner) (fun s i => { s with inner := i }) act

/-- Run an operation that answers a usable size, and remember it when it succeeds. -/
def record (act : Act σ (H × Int64)) : Act (Sized σ) (H × Int64) := do
  let r ← onInner act
  modify fun s => { s with size := r.2 }
  pure r

instance : Storage (Sized σ) H where
  dangling align := onInner (Storage.dangling align)
  resolve h := onInner (Storage.resolve h)
  resolveSize? := some fun _ => do pure (← get).size
  allocate l := record (Storage.allocate l)
  deallocate h l := do
    onInner (Storage.deallocate h l)
    modify fun s => { s with size := 0 }
  resize grow h old new r := record (Storage.resize grow h old new r)
  resizeWith form h old new := record (Storage.resizeWith form h old new)
  epoch s := Storage.epoch s.inner
  addressStable := Storage.addressStable σ
  memory s := Storage.memory s.inner
  setMemory s m := { s with inner := Storage.setMemory s.inner m }

end Sized

end BlockArena
