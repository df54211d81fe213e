import BlockArena.Arena.Alloc
import BlockArena.Storage.Alloc

/-! # Address storage

An address storage is an allocation storage over a block arena: its handles are arena
addresses. Freeing an address outside the arena aborts.
-/

set_option autoImplicit false

namespace BlockArena

/-- Arena addresses used as handles. -/
structure AddressStore where
  arena : Arena
  /-- The runs written around the arena's buffer. -/
  around : List (Int × ByteArray) := []
  epoch : UInt64 := 0

namespace AddressStore

def onArena {α : Type} (act : Act Arena α) : Act AddressStore α :=
  Act.focus (·.arena) (fun s a => { s with arena := a }) act

def bump : Act AddressStore Unit :=
  modify fun s => { s with epoch := s.epoch + 1 }

def space (s : AddressStore) : Space := ⟨s.arena.bytes, s.around⟩

def withSpace (s : AddressStore) (m : Space) : AddressStore :=
  { s with arena := { s.arena with bytes := m.buffer }, around := m.around }

/-- The block arena as the allocator under an allocation storage. -/
def backing : AllocBacking AddressStore where
  alloc l := do
    let (off, n) ← onArena (Arena.alloc l)
    pure (.offset off.toInt, n)
  dealloc p l :=
    match p with
    | .offset off => onArena (Arena.dealloc (Int64.ofInt off) l)
    | _ => Act.fail .deallocForeign
  epoch := (·.epoch)
  bump := bump
  memory := space
  setMemory := withSpace

def allocate (l : Layout) : Act AddressStore (Addr × Int64) := backing.allocate l

def deallocate (p : Addr) (l : Layout) : Act AddressStore Unit := backing.deallocate p l

def resize (grow : Bool) (p : Addr) (old new : Layout) (r : Region) :
    Act AddressStore (Addr × Int64) :=
  backing.resize grow p old new r

end AddressStore

instance : Storage AddressStore Addr := AddressStore.backing.storage

end BlockArena
