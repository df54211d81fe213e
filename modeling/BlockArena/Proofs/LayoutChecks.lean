import BlockArena.Proofs.Outcome
import BlockArena.Proofs.Store.Calls

/-! # Where a resize checks its new layout

A block storage resizes an allocation in place when in-place resizing is allowed and the
allocation's address already has the new alignment (`BlockStore.resizesInPlace`); otherwise it
relocates. Relocating asks the arena for a fresh run, and the arena checks the layout before
anything else (`Layout.check`): a layout of negative size, of an alignment that is not a power of
two, or too large to round up to its alignment is refused, and nothing changes
(`Arena.alloc_of_invalid`). Growing or shrinking in place asks the arena for the blocks after the
run or gives back its tail, and neither checks the layout.

So every resize form refuses an invalid new layout with the store unchanged whenever the call
relocates (`invalid_layouts_refused_when_relocating`): when the storage forbids in-place
resizing, or the allocation's address lacks the new alignment. On the in-place path the check is
skipped: `in_place_grow_skips_layout_check` grows an allocation to a layout of alignment `3`.
-/

set_option autoImplicit false

namespace BlockArena

namespace Arena

/-- A layout that fails its check is refused before the arena is touched. -/
theorem alloc_of_invalid {l : Layout} {c : Fault} (hc : l.check = .error c) (a : Arena) :
    (alloc l).run a = .error (.invalidLayout c) a := by
  unfold alloc
  rw [hc]
  rfl

end Arena

namespace BlockStore

variable {s : BlockStore} {h : UInt64} {e : BlockEntry} {new : Layout} {c : Fault}

/-- A relocating resize of a live handle to a layout that fails its check is refused by the
    arena, with the store as it was. -/
theorem resize_of_invalid (hlive : s.entries.lookup h = some e)
    (hpath : s.resizesInPlace e new = false) (hc : new.check = .error c)
    (grow : Bool) (old : Layout) (r : Region) :
    (resize grow h old new r).run s = .error (.invalidLayout c) s := by
  unfold resize
  rw [Act.run_bind_ok (lookup_run_of_some hlive), Act.run_bind_ok (Act.run_get s)]
  simp only [hpath, Bool.false_eq_true, if_false]
  rw [Act.run_bind_ok (Act.run_pure _ s)]
  refine Act.run_bind_error ?_
  rw [onArena, Act.run_focus, Arena.alloc_of_invalid hc]

/-- Every form refuses such a resize: the plain resize comes first, and its refusal ends the
    call before anything is cleared. -/
theorem resizeWith_of_invalid (hlive : s.entries.lookup h = some e)
    (hpath : s.resizesInPlace e new = false) (hc : new.check = .error c)
    (form : ResizeForm) (old : Layout) :
    (Storage.resizeWith form h old new : Act BlockStore (UInt64 × Int64)).run s =
      .error (.invalidLayout c) s :=
  Act.run_bind_error (resize_of_invalid hlive hpath hc form.grow old _)

end BlockStore

/-- A block storage refuses an invalid new layout whenever the resize relocates. For every
    store, every live handle and every grow or shrink form: if the new layout fails its check
    (negative size, an alignment that is not a power of two, or a size too large to round up to
    it), and the call does not resize in place (the storage forbids it, or the allocation's
    address does not have the new alignment), then the call is refused with `invalidLayout`, an
    allocation refusal handed back to the caller, and the store is left exactly as it was: handle
    table, arena table, counters, epoch and bytes. -/
theorem invalid_layouts_refused_when_relocating (s : BlockStore) (h : UInt64) (e : BlockEntry)
    (form : ResizeForm) (old new : Layout) (c : Fault)
    (hlive : s.entries.lookup h = some e) (hinvalid : new.check = .error c)
    (hrelocates : s.resizesInPlace e new = false) :
    (Storage.resizeWith form h old new : Act BlockStore (UInt64 × Int64)).run s =
        .error (.invalidLayout c) s ∧
      (Fault.invalidLayout c).kind = .allocation ∧ (Fault.invalidLayout c).aborts = false :=
  ⟨BlockStore.resizeWith_of_invalid hlive hrelocates hinvalid form old, rfl, rfl⟩

/-- A storage that forbids in-place resizing refuses to grow its first allocation to a
    layout of alignment `3`. -/
theorem invalid_grow_refused_without_in_place :
    ∃ s₀ : BlockStore,
      BlockStore.create (.pinned false false) 8 8 Flags.noInPlaceResize = .ok s₀ ∧
      (StoreCall.runAll [.allocate ⟨8, 8⟩] s₀).entries.lookup 1 = some ⟨8, ⟨8, 8⟩, 8⟩ ∧
      (⟨16, 3⟩ : Layout).check = .error (.notPowerOfTwo "layout alignment" 3) ∧
      (StoreCall.runAll [.allocate ⟨8, 8⟩] s₀).resizesInPlace ⟨8, ⟨8, 8⟩, 8⟩ ⟨16, 3⟩ = false ∧
      (Storage.resizeWith ⟨true, false, none⟩ 1 ⟨8, 8⟩ ⟨16, 3⟩ :
          Act BlockStore (UInt64 × Int64)).run (StoreCall.runAll [.allocate ⟨8, 8⟩] s₀) =
        .error (.invalidLayout (.notPowerOfTwo "layout alignment" 3))
          (StoreCall.runAll [.allocate ⟨8, 8⟩] s₀) := by
  refine ⟨_, rfl, ?_, rfl, ?_, ?_⟩
  · cbv
  · cbv
  · exact (invalid_layouts_refused_when_relocating _ 1 ⟨8, ⟨8, 8⟩, 8⟩ ⟨true, false, none⟩
      ⟨8, 8⟩ ⟨16, 3⟩ _ (by cbv) rfl (by cbv)).1

set_option maxRecDepth 20000 in
/-- With in-place resizing allowed, growing the first allocation of an eight-block store from
    eight bytes to a layout of sixteen bytes and alignment `3` is served in place: the address
    `8` has no bit under the mask `2`, the next block is free, and the layout is never checked. -/
theorem in_place_grow_skips_layout_check :
    ∃ s₀ : BlockStore, BlockStore.create (.pinned false false) 8 8 0 = .ok s₀ ∧
      (⟨16, 3⟩ : Layout).check = .error (.notPowerOfTwo "layout alignment" 3) ∧
      (Storage.resizeWith ⟨true, false, none⟩ 1 ⟨8, 8⟩ ⟨16, 3⟩ :
          Act BlockStore (UInt64 × Int64)).run (StoreCall.runAll [.allocate ⟨8, 8⟩] s₀) =
        .ok (1, 16) (Act.leaves (Storage.resizeWith ⟨true, false, none⟩ 1 ⟨8, 8⟩ ⟨16, 3⟩ :
          Act BlockStore (UInt64 × Int64)) (StoreCall.runAll [.allocate ⟨8, 8⟩] s₀)) := by
  refine ⟨_, rfl, rfl, ?_⟩
  cbv

end BlockArena
