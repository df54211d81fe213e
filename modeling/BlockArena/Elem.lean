import BlockArena.Layout

/-! # Element types

An element type of typed handles is what the runtime knows of a type: its size and its
alignment, which like those of every type are a size that is not negative and a power-of-two
alignment dividing it (`Layout.isElem`), together with a short name used in requests and the
type name used in coercion messages. Every statement about typed handles is made for any such
type. The protocol names eight: unsigned integers of one, two, four and eight bytes, a
three-byte array, a pair of eight-byte words, and two zero-sized types of different alignment.
-/

set_option autoImplicit false

namespace BlockArena

/-- The layout is that of a type: its size is not negative and its alignment is a power of two
    that divides it. -/
def Layout.isElem (l : Layout) : Bool :=
  decide (0 ≤ l.size.toInt) && Word.isPow2 l.align && l.size.toInt % (l.align.toNat : Int) == 0

/-- An element type of typed handles. -/
structure Elem where
  /-- The short name of the type in requests. -/
  name : String
  /-- The name of the type in coercion messages. -/
  typeName : String
  size : Int64
  align : UInt64
  shaped : Layout.isElem ⟨size, align⟩ = true
  deriving DecidableEq, Repr

namespace Elem

def u8 : Elem := ⟨"u8", "uint8", 1, 1, rfl⟩
def u16 : Elem := ⟨"u16", "uint16", 2, 2, rfl⟩
def u32 : Elem := ⟨"u32", "uint32", 4, 4, rfl⟩
def u64 : Elem := ⟨"u64", "uint64", 8, 8, rfl⟩
def b3 : Elem := ⟨"b3", "[3]uint8", 3, 1, rfl⟩
def w2 : Elem := ⟨"w2", "[2]uint64", 16, 8, rfl⟩
def zst : Elem := ⟨"zst", "struct \x7b\x7d", 0, 1, rfl⟩
def z64 : Elem := ⟨"z64", "[0]uint64", 0, 8, rfl⟩

instance instInhabitedElem : Inhabited Elem := ⟨u8⟩

def layout (e : Elem) : Layout := ⟨e.size, e.align⟩

/-- Zero-sized elements take no storage at all. -/
def isZeroSized (e : Elem) : Bool := e.size == 0

theorem size_nonneg (e : Elem) : 0 ≤ e.size.toInt := by
  have h := e.shaped
  simp only [Layout.isElem, Bool.and_eq_true, decide_eq_true_eq] at h
  exact h.1.1

theorem size_pos {e : Elem} (he : e.isZeroSized = false) : 0 < e.size.toInt := by
  have h0 := e.size_nonneg
  have hne : e.size ≠ 0 := by simpa [isZeroSized] using he
  have : e.size.toInt ≠ 0 := fun h => hne (Int64.toInt_inj.1 (by simpa using h))
  omega

theorem size_of_zeroSized {e : Elem} (he : e.isZeroSized = true) : e.size = 0 := by
  simpa [isZeroSized] using he

/-- The element types the protocol names. -/
def all : List Elem := [u8, u16, u32, u64, b3, w2, zst, z64]

def ofName? (s : String) : Option Elem :=
  all.find? fun e => e.name == s

end Elem

end BlockArena
