/-! # Creation flags and their names

Flags are 32-bit words of single-bit options. The text of a flag word is `None` for zero and
otherwise the names of its set bits that have a name, from the lowest bit up, joined by `|`;
set bits without a name are left out, so a word of unnamed bits has empty text.
-/

set_option autoImplicit false

namespace BlockArena

namespace Flags

/-- The named options of an arena: bit 0 says callers synchronise externally. -/
def arenaNames : List (Int32 × String) :=
  [(1, "BitmapCreateExternallySynchronized")]

/-- The named options of a block storage: bit 0 says callers synchronise externally, bit 1
    forbids resizing an allocation where it lies. -/
def storeNames : List (Int32 × String) :=
  [(1, "BlockStorageCreateExternallySynchronized"), (2, "BlockStorageCreateNoInPlaceResize")]

/-- The block storage option that forbids resizing in place. -/
def noInPlaceResize : Int32 := 2

/-- The text of a flag word, given the names of its bits in increasing bit order. -/
def render (names : List (Int32 × String)) (value : Int32) : String :=
  if value = 0 then "None"
  else "|".intercalate ((names.filter fun n => (value &&& n.1) != 0).map Prod.snd)

end Flags

end BlockArena
