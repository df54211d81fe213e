import BlockArena.Word

/-! # Layouts

A layout is what an allocation request asks for: a size in bytes (a signed word) and an
alignment (an unsigned word). Its text is `{size: S, align: A}`. Checking that a layout can be
served at all (`Layout.check`) lives with the faults, in `BlockArena.Layout.Check`.
-/

set_option autoImplicit false

namespace BlockArena

/-- A request for memory: `size` bytes whose address is a multiple of `align`. -/
structure Layout where
  size : Int64
  align : UInt64
  deriving DecidableEq, Inhabited, Repr

namespace Layout

def render (l : Layout) : String :=
  let s := toString l.size
  let a := toString l.align
  "\x7bsize: " ++ s ++ ", align: " ++ a ++ "\x7d"

def withSize (l : Layout) (size : Int64) : Layout :=
  { l with size := size }

@[simp] theorem withSize_size (l : Layout) (size : Int64) : (l.withSize size).size = size := rfl

@[simp] theorem withSize_align (l : Layout) (size : Int64) : (l.withSize size).align = l.align :=
  rfl

end Layout

end BlockArena
