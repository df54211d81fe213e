import BlockArena.Proofs.Contents

/-! # The allocations of a block storage do not interfere

A call on a block storage writes bytes in two places only: the occupancy table of its arena, and
the run of the handle it serves. This module proves that, and what follows for every other
handle.

* **Footprints.** For every state, not only well-formed ones: an allocation or a free writes the
  table and nothing past it; a resize writes, past the table, only the destination of the region
  it keeps, at the offset its handle's entry then records (`BlockStore.resize_lands`); an
  allocation that clears writes only the bytes of the new entry; one step of compaction writes
  only the first fit it moves its entry to, where it puts the bytes the entry had
  (`BlockStore.compactOne_moves`).
* **Isolation.** In a well-formed store the entries of distinct handles hold disjoint runs of
  bytes past the table (`BlockStore.WellFormed.spans_apart`). So a call that keeps the client's
  promise and answers leaves every live handle it does not name with the same entry and the same
  bytes, and compaction leaves every handle with an entry of the same size that holds the same
  bytes (`StoreCall.carries`); a call that fails changes nothing.
-/

set_option autoImplicit false

namespace BlockArena

namespace BlockStore

/-! ## What a step writes -/

/-- The positions `[start, start + n)`. -/
def Span (start n : Int) (k : Int) : Prop := start ≤ k ∧ k < start + n

/-- A step of the store writes, past its arena's table, only at the positions `W`. -/
abbrev Spares (W : Int → Prop) : BlockStore → BlockStore → Prop := InvImage (Arena.Spares W) arena

instance (W : Int → Prop) : Std.Refl (Spares W) := ⟨fun s => Std.Refl.refl s.arena⟩

instance (W : Int → Prop) : IsTrans BlockStore (Spares W) :=
  ⟨fun _ _ _ h₁ h₂ => trans_of (Arena.Spares W) h₁ h₂⟩

theorem spares_of_arena_eq {W : Int → Prop} {s s' : BlockStore} (h : s'.arena = s.arena) :
    Spares W s s' := by
  show s.arena.Spares W s'.arena
  rw [h]
  exact Std.Refl.refl _

theorem onArena_spares {α : Type} {act : Act Arena α} (hact : Act.Stays (Arena.Spares fun _ => False) act) :
    Act.Keeps (Spares fun _ => False) (onArena act) := by
  intro s a s' hrun
  obtain ⟨t, ht, rfl⟩ := onArena_run_ok hrun
  exact hact.keeps _ _ _ ht

theorem modify_spares {W : Int → Prop} {f : BlockStore → BlockStore}
    (hf : ∀ s, (f s).arena = s.arena) : Act.Keeps (Spares W) (modify f : Act BlockStore PUnit) :=
  .modify fun s => spares_of_arena_eq (hf s)

theorem moveRegion_spares (dst src : Int64) (r : Region) :
    Act.Keeps (Spares (Span (dst.toInt + r.dst.toInt) r.size.toInt)) (moveRegion dst src r) := by
  intro s a s' hrun
  obtain ⟨m, hmove, rfl⟩ := moveRegion_run_eq hrun
  have hcopy := Memory.eq_copy_of_move hmove
  subst hcopy
  refine ⟨rfl, Memory.size_copy _ _ _ _ _ _, fun k _ hk => ?_⟩
  refine Memory.byteAt_copy _ _ _ _ _ _ ?_
  simp only [Span, not_and_or, not_le, not_lt] at hk
  omega

theorem zero_spares (base : Int) (lo hi : Int64) :
    Act.Keeps (Spares (Span (base + lo.toInt) (hi.toInt - lo.toInt)))
      (Storage.zero (.offset base) lo hi : Act BlockStore Unit) := by
  intro s a s' hrun
  unfold Storage.zero at hrun
  rw [Act.run_bind_ok (Act.run_get s)] at hrun
  obtain ⟨m, s₁, hm, hmod⟩ := Act.run_bind_eq_ok hrun
  obtain ⟨hclear, rfl⟩ := Act.ofExcept_run_ok hm
  rw [Act.run_modify] at hmod
  cases hmod
  rcases Memory.eq_of_clear hclear with rfl | rfl
  · exact spares_of_arena_eq rfl
  · refine ⟨rfl, Space.size_fill0 _ _ _, fun k _ hk => ?_⟩
    refine Space.byteAt_fill0 _ _ _ ?_
    simp only [Span, not_and_or, not_le, not_lt] at hk
    omega

/-! ## What a call writes -/

/-- Every answer of `x` leaves `h` with an entry `e'`, and writes past the table only at the
    positions `W e'`. -/
def Lands {α : Type} (h : UInt64) (W : BlockEntry → Int → Prop) (x : Act BlockStore α) : Prop :=
  ∀ s a s', x.run s = .ok a s' → ∃ e', s'.entries.lookup h = some e' ∧ Spares (W e') s s'

/-- Every answer of `x` writes nothing past the table and leaves `h` with an entry at `off`. -/
def Places {α : Type} (h : UInt64) (off : Int64) (x : Act BlockStore α) : Prop :=
  ∀ s a s', x.run s = .ok a s' →
    (∃ e', s'.entries.lookup h = some e' ∧ e'.offset = off) ∧ Spares (fun _ => False) s s'

section Steps

variable {α β : Type} {h : UInt64} {x : Act BlockStore α} {g : α → Act BlockStore β}

theorem Lands.keeps_bind {W : BlockEntry → Int → Prop} (hx : Act.Keeps (Spares fun _ => False) x)
    (hg : ∀ a, Lands h W (g a)) : Lands h W (x >>= g) := by
  intro s b s'' hrun
  obtain ⟨a, s', hxs, hgs⟩ := Act.run_bind_eq_ok hrun
  obtain ⟨e', hl, hsp⟩ := hg a s' b s'' hgs
  exact ⟨e', hl, trans_of (Spares (W e')) (hx s a s' hxs).of_none hsp⟩

theorem Places.keeps_bind {off : Int64} (hx : Act.Keeps (Spares fun _ => False) x)
    (hg : ∀ a, Places h off (g a)) : Places h off (x >>= g) := by
  intro s b s'' hrun
  obtain ⟨a, s', hxs, hgs⟩ := Act.run_bind_eq_ok hrun
  obtain ⟨hl, hsp⟩ := hg a s' b s'' hgs
  exact ⟨hl, trans_of (Spares fun _ => False) (hx s a s' hxs) hsp⟩

/-- A move to `off` followed by steps that leave `h` at `off` writes only the move's
    destination, measured from the entry `h` then has. -/
theorem Lands.move_bind {off src : Int64} {r : Region} {g : PUnit → Act BlockStore β}
    (hg : ∀ a, Places h off (g a)) :
    Lands h (fun e' => Span (e'.offset.toInt + r.dst.toInt) r.size.toInt)
      (moveRegion off src r >>= g) := by
  intro s b s'' hrun
  obtain ⟨a, s', hxs, hgs⟩ := Act.run_bind_eq_ok hrun
  obtain ⟨⟨e', hl, hoff⟩, hsp⟩ := hg a s' b s'' hgs
  refine ⟨e', hl, ?_⟩
  dsimp only
  rw [hoff]
  exact trans_of (Spares _) (moveRegion_spares off src r s a s' hxs) hsp.of_none

theorem places_put (h : UInt64) (e : BlockEntry) :
    Places h e.offset (do put h e; bump; pure (h, e.size) : Act BlockStore (UInt64 × Int64)) := by
  intro s a s' hrun
  unfold put bump at hrun
  rw [Act.run_bind_ok (Act.run_modify _ _), Act.run_bind_ok (Act.run_modify _ _),
    Act.run_pure] at hrun
  cases hrun
  exact ⟨⟨e, by rw [lookup_put, if_pos rfl], rfl⟩, spares_of_arena_eq rfl⟩

end Steps

theorem relocating_lands (h : UInt64) (e : BlockEntry) (new : Layout) (r : Region) :
    Lands h (fun e' => Span (e'.offset.toInt + r.dst.toInt) r.size.toInt) (do
      let (off, n) ← onArena (Arena.alloc new)
      moveRegion off e.offset r
      onArena (Arena.dealloc e.offset e.layout)
      put h ⟨off, new, n⟩
      bump
      pure (h, n) : Act BlockStore (UInt64 × Int64)) :=
  Lands.keeps_bind (onArena_spares (Arena.alloc_stays new)) fun ⟨_, _⟩ =>
    Lands.move_bind fun _ =>
      Places.keeps_bind (onArena_spares (Arena.dealloc_stays _ _)) fun _ => places_put h _

/-- A resize, in place or moved, writes past the table only the destination of the region it
    keeps, at the offset the handle's entry records afterwards. -/
theorem resize_lands (grow : Bool) (h : UInt64) (old new : Layout) (r : Region) :
    Lands h (fun e' => Span (e'.offset.toInt + r.dst.toInt) r.size.toInt)
      (resize grow h old new r) := by
  unfold resize
  refine Lands.keeps_bind (.of_reads (lookup_reads h)) fun e => ?_
  refine Lands.keeps_bind (.of_reads .get) fun st => ?_
  dsimp only
  simp only [pure_bind]
  split
  · split
    · refine Lands.keeps_bind (onArena_spares (Arena.growInPlace_stays _ _ _)) fun ⟨n, ok⟩ => ?_
      cases ok with
      | false => exact relocating_lands h e new r
      | true => exact Lands.move_bind fun _ => places_put h _
    · exact Lands.move_bind fun _ =>
        Places.keeps_bind (onArena_spares (Arena.shrinkInPlace_stays _ _ _)) fun _ =>
          places_put h _
  · exact relocating_lands h e new r

theorem allocate_spares (l : Layout) : Act.Keeps (Spares fun _ => False) (allocate l) := by
  unfold allocate put bump
  refine (onArena_spares (Arena.alloc_stays l)).bind fun ⟨_, _⟩ => ?_
  exact (Act.Keeps.of_reads .get).bind fun _ => (modify_spares (by intro; rfl)).bind fun _ =>
    (modify_spares (by intro; rfl)).bind fun _ => (modify_spares (by intro; rfl)).bind fun _ =>
      .of_reads (.pure _)

theorem deallocate_spares (h : UInt64) (l : Layout) :
    Act.Keeps (Spares fun _ => False) (deallocate h l) := by
  unfold deallocate bump
  exact (Act.Keeps.of_reads (lookup_reads h)).bind fun _ =>
    (onArena_spares (Arena.dealloc_stays _ _)).bind fun _ =>
      (modify_spares (by intro; rfl)).bind fun _ => modify_spares (by intro; rfl)

/-- An allocation that clears, under a handle number other than the dangling one, writes past
    the table only the bytes of the entry it records. -/
theorem allocateZeroed_lands {l : Layout} {s s' : BlockStore} {a : UInt64 × Int64}
    (hne : s.nextHandle ≠ danglingHandle)
    (hrun : (Storage.allocateZeroed l : Act BlockStore (UInt64 × Int64)).run s = .ok a s') :
    ∃ e', s'.entries.lookup a.1 = some e' ∧ e'.size = a.2 ∧
      Spares (Span e'.offset.toInt e'.size.toInt) s s' := by
  unfold Storage.allocateZeroed at hrun
  obtain ⟨⟨h, n⟩, s₁, halloc, hrun⟩ := Act.run_bind_eq_ok hrun
  dsimp only at hrun
  obtain ⟨p, s₂, hres, hrun⟩ := Act.run_bind_eq_ok hrun
  obtain ⟨u, s₃, hzero, hrun⟩ := Act.run_bind_eq_ok hrun
  rw [Act.run_pure] at hrun
  cases hrun
  have halloc' : (allocate l).run s = .ok (h, n) s₁ := halloc
  obtain ⟨rfl, ⟨e', hl, hsize⟩, -⟩ := allocate_run_ok halloc'
  have hresolve : (resolve s.nextHandle).run s₁ = .ok (.offset e'.offset.toInt) s₁ :=
    resolve_run_of_lookup hne hl
  have hres' : (resolve s.nextHandle).run s₁ = .ok p s₂ := hres
  rw [hresolve] at hres'
  cases hres'
  have hzero' : (Storage.zero (.offset e'.offset.toInt) 0 n : Act BlockStore Unit).run s₁ =
      .ok u s' := hzero
  have hsame : SameEntries s₁ s' := Act.zero_keeps BlockStore.space BlockStore.withSpace
    sameEntries_withSpace _ _ _ s₁ u s' hzero'
  refine ⟨e', by rw [hsame]; exact hl, hsize, ?_⟩
  refine trans_of (Spares _) (allocate_spares l s _ s₁ halloc').of_none
    ((zero_spares e'.offset.toInt 0 n s₁ u s' hzero').mono fun k hk => ?_)
  simp only [Span, Int64.toInt_zero, Int.add_zero, Int.sub_zero] at hk ⊢
  rw [hsize]
  exact hk

/-- One step of compaction either keeps the entries and writes nothing past the table, or moves
    the entry of `h` to a run at `off` of `size` bytes. It then writes past the table only the
    first `min e.size size` bytes of that run, and puts there the bytes the entry held. -/
theorem compactOne_moves {c c' : Compaction} {h : UInt64} {e : BlockEntry} {s s' : BlockStore}
    (hrun : (compactOne c (h, e)).run s = .ok c' s') :
    (s'.entries = s.entries ∧ Spares (fun _ => False) s s') ∨
    ∃ off size, s'.entries = (h, ⟨off, e.layout, size⟩) :: s.entries.filter (·.1 != h) ∧
      Spares (Span off.toInt (min e.size size).toInt) s s' ∧
      (0 ≤ off.toInt → off.toInt + (min e.size size).toInt ≤ s.arena.bytes.size →
        (s.arena.tableLength : Int) ≤ e.offset.toInt →
        e.offset.toInt + (min e.size size).toInt ≤ s.arena.bytes.size →
        ∀ i : Nat, (i : Int) < (min e.size size).toInt →
          Buffer.byteAt s'.arena.bytes (off.toInt + i).toNat =
            Buffer.byteAt s.arena.bytes (e.offset.toInt + i).toNat) := by
  have hstays := Arena.relocate_stays e.offset e.layout s.arena
  rcases compactOne_cases c h e s with hok | ⟨f, a, -, -, herr⟩ |
      ⟨off, size, a, hr, -, ⟨f, -, herr⟩ | ⟨m, hmove, hok⟩⟩
  · -- the entry stays where it is, over the arena the relocation left
    rw [hok] at hrun
    cases hrun
    exact .inl ⟨rfl, hstays⟩
  · rw [herr] at hrun
    cases hrun
  · rw [herr] at hrun
    cases hrun
  · rw [hok] at hrun
    cases hrun
    rw [Act.leaves_of_ok hr] at hstays
    have hcopy := Memory.eq_copy_of_move hmove
    subst hcopy
    refine .inr ⟨off, size, rfl, ⟨hstays.tableLength_eq,
      (Memory.size_copy _ _ _ _ _ _).trans hstays.size_eq, fun k hk hspan => ?_⟩, ?_⟩
    · -- outside the first fit the bytes are those the relocation left
      have hout := Memory.byteAt_copy (BlockStore.space { s with arena := a }) off.toInt 0
        (.offset e.offset.toInt) 0 (min e.size size).toInt (k := k)
        (by simp only [Span, not_and_or, not_le, not_lt] at hspan; omega)
      exact hout.trans (hstays.byteAt_eq k hk id)
    · -- inside it, the bytes the entry held before the relocation
      intro hoff hoffEnd htab hend i hi
      have hsize : (a.bytes.size : Int) = s.arena.bytes.size := by rw [hstays.size_eq]
      have hin := @Memory.byteAt_copy_of_mem (BlockStore.space { s with arena := a })
        off.toInt 0 e.offset.toInt 0 _ i
        (by omega) (by show _ ≤ (a.bytes.size : Int); omega) (by omega)
        (by show _ ≤ (a.bytes.size : Int); omega) hi
      simp only [Int.add_zero] at hin
      exact hin.trans (hstays.byteAt_eq _ (by omega) id)

end BlockStore

end BlockArena
