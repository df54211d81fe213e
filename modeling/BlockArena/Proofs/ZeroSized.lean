import BlockArena.Proofs.Outcome
import BlockArena.Handle.Typed
import BlockArena.Handle.Slice
import BlockArena.Handle.Sliced
import BlockArena.Storage.Block.Create

/-! # Zero-sized elements never reach the storage

Handles of an element type that takes no room short-circuit every request before the storage
is asked. Each operation of the typed handles is, for such an element, a small program that
asks the storage for a dangling handle at most (`Handle.SkipsStorage`):

* one element, cleared, uncleared or holding a value, is the storage's dangling handle;
* a run is the dangling handle, carrying `maxInt` elements, once its count passes the array
  layout's check, which for a zero-sized element refuses only a negative count; a run whose
  length the storage records is the dangling handle and counts no elements;
* freeing does nothing, every resize form answers at once in both its forms, and resolving
  gives the dangling address, which serves every alignment up to `4096`, and so every element
  type of the runtime, whose alignments are at most `8`.

The one failure that does not come from the dangling handle or the array check is a run
resolved with a negative length, which only a run made from raw parts can carry: the run is
refused as the runtime refuses a slice of negative length (`negative_zero_sized_run_refused`).
-/

set_option autoImplicit false

namespace BlockArena

variable {σ H : Type} [Storage σ H] {e : Elem}

/-- The dangling address serves the alignment of every element type aligned to at most its
    own. -/
theorem Elem.danglingFor_align (e : Elem) (halign : e.align ≤ Addr.maxDanglingAlign) :
    Addr.danglingFor e.align = .ok .dangling := by
  have hpow := e.shaped
  simp only [Layout.isElem, Bool.and_eq_true] at hpow
  simp only [Addr.danglingFor, Addr.checkDanglingAlign, hpow.1.2, Bool.not_true,
    Bool.false_eq_true, ite_false, UInt64.not_lt.2 halign]
  rfl

@[simp] theorem Act.fail_bind {α β : Type} (f : Fault) (g : α → Act σ β) :
    (Act.fail f >>= g) = Act.fail f := rfl

namespace Handle

@[simp] theorem formOf_pure {α : Type} (aborting : Bool) (l : Layout) (a : α) :
    (formOf aborting l (pure a) : Act σ α) = pure a := by
  cases aborting <;> rfl

theorem zeroSizedAddr_eq (e : Elem) (halign : e.align ≤ Addr.maxDanglingAlign) :
    (zeroSizedAddr e : Act σ Addr) = pure .dangling := by
  unfold zeroSizedAddr
  rw [Elem.danglingFor_align e halign]
  rfl

theorem resizeElems_of_zeroSized (he : e.isZeroSized = true) (h : H) (oldLen newLen : Int64)
    (form : ResizeForm) : (resizeElems e h oldLen newLen form : Act σ (H × Int64)) =
      pure (h, Word.maxInt) := by
  simp [resizeElems, he]

end Handle

theorem Layout.ofExcept_array_of_zeroSized (he : e.isZeroSized = true) (count : Int64) :
    Act.ofExcept (Layout.array e.layout count) =
      (if count < 0 then Act.fail (.arrayOverflows count e.size) else pure ⟨0, e.align⟩ :
        Act σ Layout) := by
  have h0 := Elem.size_of_zeroSized he
  unfold Layout.array
  by_cases hc : count < 0
  · simp [hc, Act.ofExcept, Act.fail, Elem.layout]
  · simp [hc, Word.mulOverflows, Elem.layout, h0, Act.ofExcept]

/-! ## One element -/

namespace Typed

theorem tryAllocate_of_zeroSized (he : e.isZeroSized = true) (zeroed : Bool) :
    (tryAllocate e zeroed : Act σ (Typed H)) = tryDangling e := by
  simp [tryAllocate, he]

theorem tryNew_of_zeroSized (he : e.isZeroSized = true) (v : ByteArray) :
    (tryNew e v : Act σ (Typed H)) = tryDangling e := by
  simp [tryNew, tryAllocate_of_zeroSized he, he]

theorem deallocate_of_zeroSized (he : e.isZeroSized = true) (h : H) :
    (deallocate ⟨e, h⟩ : Act σ Unit) = pure () := by
  simp [deallocate, he]

theorem resolveRaw_of_zeroSized (he : e.isZeroSized = true)
    (halign : e.align ≤ Addr.maxDanglingAlign) (h : H) :
    (resolveRaw ⟨e, h⟩ : Act σ Addr) = pure .dangling := by
  simp [resolveRaw, he, Handle.zeroSizedAddr_eq e halign]

theorem resolve_of_zeroSized (he : e.isZeroSized = true)
    (halign : e.align ≤ Addr.maxDanglingAlign) (h : H) :
    (resolve ⟨e, h⟩ : Act σ View) = pure ⟨.dangling, none, 0⟩ := by
  simp [resolve, resolveRaw_of_zeroSized he halign, Elem.size_of_zeroSized he]

end Typed

/-! ## Runs that carry their length -/

namespace Slice

theorem tryAllocate_of_zeroSized (he : e.isZeroSized = true) (count : Int64) (zeroed : Bool) :
    (tryAllocate e count zeroed : Act σ (Slice H)) =
      if count < 0 then Act.fail (.arrayOverflows count e.size)
      else Storage.dangling e.align >>= fun h => pure ⟨e, h, Word.maxInt⟩ := by
  unfold tryAllocate
  rw [Layout.ofExcept_array_of_zeroSized he]
  by_cases hc : count < 0
  · rw [if_pos hc, if_pos hc, Act.fail_bind]
  · simp [hc, he, tryDangling]

theorem deallocate_of_zeroSized (he : e.isZeroSized = true) (h : H) (len : Int64) :
    (deallocate ⟨e, h, len⟩ : Act σ Unit) = pure () := by
  simp [deallocate, he]

theorem resolveRaw_of_zeroSized (he : e.isZeroSized = true)
    (halign : e.align ≤ Addr.maxDanglingAlign) (h : H) (len : Int64) :
    (resolveRaw ⟨e, h, len⟩ : Act σ Addr) = pure .dangling := by
  simp [resolveRaw, he, Handle.zeroSizedAddr_eq e halign]

/-- A run of zero-sized elements resolves at the dangling address with its own length, unless
    that length is negative. -/
theorem resolve_of_zeroSized (he : e.isZeroSized = true)
    (halign : e.align ≤ Addr.maxDanglingAlign) (h : H) (len : Int64) :
    (resolve ⟨e, h, len⟩ : Act σ View) =
      if len < 0 then Act.fail .runOutOfRange else pure ⟨.dangling, some len, 0⟩ := by
  unfold resolve
  rw [resolveRaw_of_zeroSized he halign, pure_bind]
  by_cases hl : len < 0
  · simp [View.ofRun, hl, Act.ofExcept, Act.fail]
  · simp [View.ofRun, hl, he, Act.ofExcept]

theorem tryResize_of_zeroSized (he : e.isZeroSized = true) (h : H) (len newLen : Int64)
    (form : ResizeForm) : (tryResize ⟨e, h, len⟩ newLen form : Act σ (Slice H)) =
      pure ⟨e, h, Word.maxInt⟩ := by
  simp [tryResize, Handle.resizeElems_of_zeroSized he]

end Slice

/-! ## Runs whose length the storage records -/

namespace Sliced

theorem tryAllocate_of_zeroSized (he : e.isZeroSized = true) (count : Int64) (zeroed : Bool) :
    (tryAllocate e count zeroed : Act σ (Sliced H)) =
      if count < 0 then Act.fail (.arrayOverflows count e.size) else tryDangling e := by
  unfold tryAllocate
  rw [Layout.ofExcept_array_of_zeroSized he]
  by_cases hc : count < 0
  · rw [if_pos hc, if_pos hc, Act.fail_bind]
  · simp [hc, he]

theorem len_of_zeroSized (he : e.isZeroSized = true) (h : H) :
    (len ⟨e, h⟩ : Act σ Int64) = pure 0 := by
  simp [len, he]

theorem deallocate_of_zeroSized (he : e.isZeroSized = true) (h : H) :
    (deallocate ⟨e, h⟩ : Act σ Unit) = pure () := by
  simp [deallocate, he]

theorem resolveRaw_of_zeroSized (he : e.isZeroSized = true)
    (halign : e.align ≤ Addr.maxDanglingAlign) (h : H) :
    (resolveRaw ⟨e, h⟩ : Act σ (Addr × Int64)) = pure (.dangling, 0) := by
  simp [resolveRaw, he, Handle.zeroSizedAddr_eq e halign]

theorem resolve_of_zeroSized (he : e.isZeroSized = true)
    (halign : e.align ≤ Addr.maxDanglingAlign) (h : H) :
    (resolve ⟨e, h⟩ : Act σ View) = pure ⟨.dangling, some 0, 0⟩ := by
  unfold resolve
  rw [resolveRaw_of_zeroSized he halign, pure_bind]
  simp [View.ofRun, he, Act.ofExcept]

theorem tryResize_of_zeroSized (he : e.isZeroSized = true) (h : H) (newLen : Int64)
    (form : ResizeForm) : (tryResize ⟨e, h⟩ newLen form : Act σ (Sliced H)) = pure ⟨e, h⟩ := by
  simp [tryResize, len_of_zeroSized he, Handle.resizeElems_of_zeroSized he]

end Sliced

/-! ## Every handle operation -/

/-- What the handles of an element type `e` do on a storage `σ` when `e` takes no room: each
    operation is answered without the storage, save for asking it for a dangling handle. -/
structure Handle.SkipsStorage (σ : Type) {H : Type} [Storage σ H] (e : Elem) : Prop where
  /-- One element, cleared or not, is the dangling handle. -/
  typed_allocate : ∀ zeroed, (Typed.tryAllocate e zeroed : Act σ (Typed H)) = Typed.tryDangling e
  /-- One element holding a value is the dangling handle; the value is written nowhere. -/
  typed_new : ∀ v, (Typed.tryNew e v : Act σ (Typed H)) = Typed.tryDangling e
  /-- A run is the dangling handle carrying `maxInt` elements; only a negative count is
      refused, by the array layout. -/
  slice_allocate : ∀ count zeroed, (Slice.tryAllocate e count zeroed : Act σ (Slice H)) =
    if count < 0 then Act.fail (.arrayOverflows count e.size)
    else Storage.dangling e.align >>= fun h => pure ⟨e, h, Word.maxInt⟩
  /-- A run whose length the storage records is the dangling handle, on the same condition. -/
  sliced_allocate : ∀ count zeroed, (Sliced.tryAllocate e count zeroed : Act σ (Sliced H)) =
    if count < 0 then Act.fail (.arrayOverflows count e.size) else Sliced.tryDangling e
  /-- Freeing one element does nothing. -/
  typed_deallocate : ∀ h : H, (Typed.deallocate ⟨e, h⟩ : Act σ Unit) = pure ()
  /-- Freeing a run does nothing, whatever length it carries. -/
  slice_deallocate : ∀ (h : H) len, (Slice.deallocate ⟨e, h, len⟩ : Act σ Unit) = pure ()
  /-- Freeing a run whose length the storage records does nothing. -/
  sliced_deallocate : ∀ h : H, (Sliced.deallocate ⟨e, h⟩ : Act σ Unit) = pure ()
  /-- One element resolves to the dangling address. -/
  typed_resolve : ∀ h : H, (Typed.resolveRaw ⟨e, h⟩ : Act σ Addr) = pure .dangling ∧
    (Typed.resolve ⟨e, h⟩ : Act σ View) = pure ⟨.dangling, none, 0⟩
  /-- A run resolves to the dangling address with its own length; a negative length is
      refused. -/
  slice_resolve : ∀ (h : H) len, (Slice.resolveRaw ⟨e, h, len⟩ : Act σ Addr) = pure .dangling ∧
    (Slice.resolve ⟨e, h, len⟩ : Act σ View) =
      if len < 0 then Act.fail .runOutOfRange else pure ⟨.dangling, some len, 0⟩
  /-- A run whose length the storage records counts no elements and resolves to the dangling
      address. -/
  sliced_resolve : ∀ h : H, (Sliced.len ⟨e, h⟩ : Act σ Int64) = pure 0 ∧
    (Sliced.resolveRaw ⟨e, h⟩ : Act σ (Addr × Int64)) = pure (.dangling, 0) ∧
    (Sliced.resolve ⟨e, h⟩ : Act σ View) = pure ⟨.dangling, some 0, 0⟩
  /-- Every resize form of a run, tried or aborting, answers at once with the same handle and
      `maxInt` elements. -/
  slice_resize : ∀ (h : H) len newLen form aborting l,
    (Handle.formOf aborting l (Slice.tryResize ⟨e, h, len⟩ newLen form) : Act σ (Slice H)) =
      pure ⟨e, h, Word.maxInt⟩
  /-- Every resize form of a run whose length the storage records answers at once with the same
      handle. -/
  sliced_resize : ∀ (h : H) newLen form aborting l,
    (Handle.formOf aborting l (Sliced.tryResize ⟨e, h⟩ newLen form) : Act σ (Sliced H)) =
      pure ⟨e, h⟩

/-- Zero-sized elements never reach the storage. On every storage, for an element type that
    takes no room, every handle operation is answered without the storage, save for asking it
    for a dangling handle: one element and every run are dangling handles, an allocated or
    resized run carries `maxInt` elements and a run whose length the storage records counts
    none, freeing does nothing, every resize form answers at once, and every resolve gives the
    dangling address. Nothing fails but the dangling handle, the array layout of a negative
    count, and the resolve of a run that carries a negative length. -/
theorem zero_sized_elements_skip_storage (e : Elem) (he : e.isZeroSized = true)
    (halign : e.align ≤ Addr.maxDanglingAlign) : Handle.SkipsStorage σ e where
  typed_allocate := Typed.tryAllocate_of_zeroSized he
  typed_new := Typed.tryNew_of_zeroSized he
  slice_allocate := Slice.tryAllocate_of_zeroSized he
  sliced_allocate := Sliced.tryAllocate_of_zeroSized he
  typed_deallocate := Typed.deallocate_of_zeroSized he
  slice_deallocate := Slice.deallocate_of_zeroSized he
  sliced_deallocate := Sliced.deallocate_of_zeroSized he
  typed_resolve h :=
    ⟨Typed.resolveRaw_of_zeroSized he halign h, Typed.resolve_of_zeroSized he halign h⟩
  slice_resolve h len :=
    ⟨Slice.resolveRaw_of_zeroSized he halign h len, Slice.resolve_of_zeroSized he halign h len⟩
  sliced_resolve h := ⟨Sliced.len_of_zeroSized he h, Sliced.resolveRaw_of_zeroSized he halign h,
    Sliced.resolve_of_zeroSized he halign h⟩
  slice_resize h len newLen form aborting l := by
    rw [Slice.tryResize_of_zeroSized he, Handle.formOf_pure]
  sliced_resize h newLen form aborting l := by
    rw [Sliced.tryResize_of_zeroSized he, Handle.formOf_pure]

/-- The empty element type skips a block storage. -/
theorem empty_elements_skip_block_storage :
    Elem.zst.isZeroSized = true ∧ Elem.zst.align ≤ Addr.maxDanglingAlign ∧
      Handle.SkipsStorage BlockStore Elem.zst :=
  ⟨rfl, by decide, zero_sized_elements_skip_storage .zst rfl (by decide)⟩

/-- A run of the empty element type made from raw parts with length `-5` is refused when
    resolved, on every block storage, as the runtime refuses a slice of negative length. -/
theorem negative_zero_sized_run_refused :
    (Slice.resolve (⟨.zst, 0, -5⟩ : Slice UInt64) : Act BlockStore View) =
      Act.fail .runOutOfRange := by
  rw [Slice.resolve_of_zeroSized rfl (by decide), if_pos (by decide)]

end BlockArena
