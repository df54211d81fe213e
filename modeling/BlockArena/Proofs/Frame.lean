import BlockArena.Proofs.References

/-! # What a call leaves alone

A call on a storage changes what it must and leaves the rest. This module says which entries of
a block storage each call touches, in the terms that the lengths of runs and the other handles
need.

* `Act.Keeps R x`: every answer of `x` leaves a state related by `R` to the one it started from;
  `Act.Yields R b x` adds that the answer is `b`. For a preorder `R` both are built up along a
  `do` block. A resize in a form answers what the plain resize it starts with answered, and the
  clearing that follows only writes memory (`Act.resizeBy_run_ok`); so does an allocation that
  clears (`Act.allocateZeroed_run_ok`).
* On a block storage, an allocation adds the entry of the next handle number, a free drops the
  entry it frees, and a resize replaces the entry of the handle it resizes with one that holds
  the usable size it answers (`BlockStore.Settles`); the entry of every other handle is left as
  it was (`BlockStore.Others`). A compaction moves entries but keeps their shapes. So a live
  handle that a call does not name keeps the usable size its entry holds
  (`StoreCall.holds_run`).
-/

set_option autoImplicit false

namespace BlockArena

namespace Act

variable {σ α β : Type} {R : σ → σ → Prop}

/-- Every answer of `x` leaves a state related by `R` to the one it started from. -/
def Keeps (R : σ → σ → Prop) (x : Act σ α) : Prop := ∀ s a s', x.run s = .ok a s' → R s s'

/-- Every answer of `x` is `b` and leaves a state related by `R` to the one it started from. -/
def Yields (R : σ → σ → Prop) (b : α) (x : Act σ α) : Prop :=
  ∀ s a s', x.run s = .ok a s' → a = b ∧ R s s'

theorem Keeps.mono {R' : σ → σ → Prop} {x : Act σ α} (hx : Keeps R x)
    (h : ∀ s s', R s s' → R' s s') : Keeps R' x :=
  fun s a s' hrun => h s s' (hx s a s' hrun)

theorem Keeps.modify {f : σ → σ} (h : ∀ s, R s (f s)) : Keeps R (modify f : Act σ PUnit) := by
  intro s a s' hrun
  cases hrun
  exact h s

/-- A step followed by steps that hand its answer back: an answer of the whole is an answer of
    the step, and the steps after it keep `R`. -/
theorem run_ok_of_yields {x : Act σ α} {g : α → Act σ α} (hg : ∀ a, Yields R a (g a))
    {s s' : σ} {b : α} (hrun : (x >>= g).run s = .ok b s') :
    ∃ s₁, x.run s = .ok b s₁ ∧ R s₁ s' := by
  obtain ⟨a, s₁, hx, hgs⟩ := run_bind_eq_ok hrun
  obtain ⟨rfl, hR⟩ := hg a s₁ b s' hgs
  exact ⟨s₁, hx, hR⟩

theorem Keeps.bind [IsTrans σ R] {x : Act σ α} {g : α → Act σ β} (hx : Keeps R x)
    (hg : ∀ a, Keeps R (g a)) : Keeps R (x >>= g) := by
  intro s b s'' hrun
  obtain ⟨a, s', hxs, hgs⟩ := run_bind_eq_ok hrun
  exact trans_of R (hx s a s' hxs) (hg a s' b s'' hgs)

theorem Keeps.bind_yields [IsTrans σ R] {x : Act σ α} {g : α → Act σ β} {b : β}
    (hx : Keeps R x) (hg : ∀ a, Yields R b (g a)) : Yields R b (x >>= g) := by
  intro s c s'' hrun
  obtain ⟨a, s', hxs, hgs⟩ := run_bind_eq_ok hrun
  obtain ⟨rfl, hR⟩ := hg a s' c s'' hgs
  exact ⟨rfl, trans_of R (hx s a s' hxs) hR⟩

theorem Keeps.of_reads [Std.Refl R] {x : Act σ α} (h : Reads x) : Keeps R x :=
  fun s a s' hrun => by
    rw [h s a s' hrun]
    exact Std.Refl.refl s

theorem Yields.pure [Std.Refl R] (b : α) : Yields R b (Pure.pure b : Act σ α) := by
  intro s a s' hrun
  cases hrun
  exact ⟨rfl, Std.Refl.refl s⟩

section Preorder

variable [Std.Refl R] [IsTrans σ R]

theorem zero_keeps (memory : σ → Space) (setMemory : σ → Space → σ)
    (hset : ∀ s m, R s (setMemory s m)) (p : Addr) (lo hi : Int64) :
    Keeps R (do
      let m ← Act.ofExcept (Memory.clear (memory (← get)) p lo hi)
      modify fun s => setMemory s m : Act σ Unit) :=
  (Keeps.of_reads .get).bind fun _ => (Keeps.of_reads (.ofExcept _)).bind fun m =>
    .modify fun s => hset s m

/-- A resize in a form answers what the plain resize it starts with answered; the clearing that
    follows only writes memory. -/
theorem resizeBy_run_ok {H : Type} {resolve : H → Act σ Addr} {memory : σ → Space}
    {setMemory : σ → Space → σ} {resize : Bool → H → Layout → Layout → Region → Act σ (H × Int64)}
    (hresolve : ∀ h, Keeps R (resolve h)) (hset : ∀ s m, R s (setMemory s m))
    {form : ResizeForm} {h : H} {old new : Layout} {s s' : σ} {a : H × Int64}
    (hrun : (resizeBy resolve memory setMemory resize form h old new).run s = .ok a s') :
    ∃ s₁, (resize form.grow h old new (form.kept old new)).run s = .ok a s₁ ∧ R s₁ s' := by
  unfold resizeBy at hrun
  refine run_ok_of_yields (fun ⟨h', n⟩ => ?_) hrun
  dsimp only
  split
  · refine (hresolve h').bind_yields fun p => ?_
    split
    · exact (zero_keeps _ _ hset _ _ _).bind_yields fun _ =>
        (zero_keeps _ _ hset _ _ _).bind_yields fun _ => .pure _
    · exact (zero_keeps _ _ hset _ _ _).bind_yields fun _ => .pure _
  · exact .pure _

/-- An allocation that clears answers what the allocation it starts with answered; the clearing
    only writes memory. -/
theorem allocateZeroed_run_ok {H : Type} [Storage σ H]
    (hresolve : ∀ h : H, Keeps R (Storage.resolve h : Act σ Addr))
    (hset : ∀ (s : σ) m, R s (Storage.setMemory (H := H) s m)) {l : Layout} {s s' : σ}
    {a : H × Int64} (hrun : (Storage.allocateZeroed l : Act σ (H × Int64)).run s = .ok a s') :
    ∃ s₁, (Storage.allocate l : Act σ (H × Int64)).run s = .ok a s₁ ∧ R s₁ s' := by
  unfold Storage.allocateZeroed at hrun
  refine run_ok_of_yields (fun ⟨h, n⟩ => ?_) hrun
  exact (hresolve h).bind_yields fun p =>
    (zero_keeps _ _ hset _ _ _).bind_yields fun _ => .pure _

end Preorder

end Act

namespace BlockStore

/-! ## The table of entries -/

section Entries

variable {entries : List (UInt64 × BlockEntry)} {h k : UInt64} {e : BlockEntry}

theorem lookup_filter_of_ne (hk : k ≠ h) : (entries.filter (·.1 != h)).lookup k = entries.lookup k := by
  have hkh : (k == h) = false := beq_eq_false_iff_ne.mpr hk
  induction entries with
  | nil => rfl
  | cons p entries ih =>
    obtain ⟨j, v⟩ := p
    by_cases hj : j = h
    · subst hj
      simp only [List.filter_cons, bne_self_eq_false, Bool.false_eq_true, if_false,
        List.lookup_cons, hkh, ih]
    · simp [hj, List.lookup_cons, ih]

theorem lookup_put (h k : UInt64) (e : BlockEntry) (entries : List (UInt64 × BlockEntry)) :
    ((h, e) :: entries.filter (·.1 != h)).lookup k = if k = h then some e else entries.lookup k := by
  by_cases hk : k = h
  · subst hk
    simp
  · simp only [List.lookup_cons, beq_eq_false_iff_ne.mpr hk, lookup_filter_of_ne hk, if_neg hk]

theorem lookup_of_mem (hnd : (entries.map Prod.fst).Nodup) (hmem : (h, e) ∈ entries) :
    entries.lookup h = some e := by
  induction entries with
  | nil => simp at hmem
  | cons p entries ih =>
    rw [List.map_cons, List.nodup_cons] at hnd
    rcases List.mem_cons.1 hmem with rfl | hmem'
    · simp
    · have hp : p.1 ≠ h := fun hp => hnd.1 (by
        rw [hp]
        exact List.mem_map_of_mem hmem')
      obtain ⟨j, v⟩ := p
      have hhj : (h == j) = false := beq_eq_false_iff_ne.mpr (Ne.symm hp)
      simp only [List.lookup_cons, hhj]
      exact ih hnd.2 hmem'

end Entries

/-- Two stores with the same table of entries. -/
def SameEntries (s s' : BlockStore) : Prop := s'.entries = s.entries

instance : Std.Refl SameEntries := ⟨fun _ => rfl⟩

instance : IsTrans BlockStore SameEntries := ⟨fun _ _ _ h₁ h₂ => h₂.trans h₁⟩

/-- Every handle but `h` has the entry it had. -/
def Others (h : UInt64) (s s' : BlockStore) : Prop :=
  ∀ k, k ≠ h → s'.entries.lookup k = s.entries.lookup k

instance (h : UInt64) : Std.Refl (Others h) := ⟨fun _ _ _ => rfl⟩

instance (h : UInt64) : IsTrans BlockStore (Others h) :=
  ⟨fun _ _ _ h₁ h₂ k hk => (h₂ k hk).trans (h₁ k hk)⟩

theorem SameEntries.others {s s' : BlockStore} (he : SameEntries s s') (h : UInt64) :
    Others h s s' := fun k _ => by rw [he]

theorem sameEntries_withSpace (s : BlockStore) (m : Space) : SameEntries s (s.withSpace m) := rfl

/-! ## The steps of the calls -/

theorem onArena_keeps {α : Type} (act : Act Arena α) : Act.Keeps SameEntries (onArena act) := by
  intro s a s' hrun
  obtain ⟨t, -, rfl⟩ := onArena_run_ok hrun
  rfl

theorem moveRegion_keeps (dst src : Int64) (r : Region) :
    Act.Keeps SameEntries (moveRegion dst src r) := by
  intro s a s' hrun
  obtain ⟨m, -, rfl⟩ := moveRegion_run_eq hrun
  rfl

theorem bump_keeps : Act.Keeps SameEntries bump := .modify fun _ => rfl

/-- The entry of `h` holds the usable size `n`. -/
def Holds (s : BlockStore) (h : UInt64) (n : Int64) : Prop :=
  ∃ e, s.entries.lookup h = some e ∧ e.size = n

theorem resolveSize_run_of_holds {s : BlockStore} {h : UInt64} {n : Int64} (hh : Holds s h n)
    (hne : h ≠ danglingHandle) : (resolveSize h).run s = .ok n s := by
  obtain ⟨e, hl, rfl⟩ := hh
  exact resolveSize_run_of_some hl hne

/-- Every answer of `x` is the handle `h` and a usable size that its entry now holds; the entry
    of every other handle is as it was. -/
def Settles (h : UInt64) (x : Act BlockStore (UInt64 × Int64)) : Prop :=
  ∀ s a s', x.run s = .ok a s' → a.1 = h ∧ Holds s' h a.2 ∧ Others h s s'

theorem Settles.keeps_bind {α : Type} {h : UInt64} {x : Act BlockStore α}
    {g : α → Act BlockStore (UInt64 × Int64)} (hx : Act.Keeps (Others h) x)
    (hg : ∀ a, Settles h (g a)) : Settles h (x >>= g) := by
  intro s b s'' hrun
  obtain ⟨a, s', hxs, hgs⟩ := Act.run_bind_eq_ok hrun
  obtain ⟨h₁, h₂, h₃⟩ := hg a s' b s'' hgs
  exact ⟨h₁, h₂, trans_of (Others h) (hx s a s' hxs) h₃⟩

theorem settles_put (h : UInt64) (e : BlockEntry) :
    Settles h (do put h e; bump; pure (h, e.size)) := by
  intro s a s' hrun
  unfold put bump at hrun
  rw [Act.run_bind_ok (Act.run_modify _ _), Act.run_bind_ok (Act.run_modify _ _),
    Act.run_pure] at hrun
  cases hrun
  refine ⟨rfl, ⟨e, ?_, rfl⟩, fun k hk => ?_⟩
  · rw [lookup_put, if_pos rfl]
  · rw [lookup_put, if_neg hk]

theorem relocating_settles (h : UInt64) (e : BlockEntry) (new : Layout) (r : Region) :
    Settles h (do
      let (off, n) ← onArena (Arena.alloc new)
      moveRegion off e.offset r
      onArena (Arena.dealloc e.offset e.layout)
      put h ⟨off, new, n⟩
      bump
      pure (h, n) : Act BlockStore (UInt64 × Int64)) := by
  refine Settles.keeps_bind ((onArena_keeps _).mono fun _ _ he => he.others h) fun ⟨off, n⟩ => ?_
  exact Settles.keeps_bind ((moveRegion_keeps _ _ _).mono fun _ _ he => he.others h) fun _ =>
    Settles.keeps_bind ((onArena_keeps _).mono fun _ _ he => he.others h) fun _ =>
      settles_put h _

/-- A resize, in place or moved, answers the handle it resized and records the usable size it
    answers in that handle's entry. -/
theorem resize_settles (grow : Bool) (h : UInt64) (old new : Layout) (r : Region) :
    Settles h (resize grow h old new r) := by
  unfold resize
  refine Settles.keeps_bind (.of_reads (lookup_reads h)) fun e => ?_
  refine Settles.keeps_bind (.of_reads .get) fun st => ?_
  dsimp only
  simp only [pure_bind]
  split
  · split
    · refine Settles.keeps_bind ((onArena_keeps _).mono fun _ _ he => he.others h)
        fun ⟨n, ok⟩ => ?_
      cases ok with
      | false => exact relocating_settles h e new r
      | true =>
        exact Settles.keeps_bind ((moveRegion_keeps _ _ _).mono fun _ _ he => he.others h)
          fun _ => settles_put h _
    · exact Settles.keeps_bind ((moveRegion_keeps _ _ _).mono fun _ _ he => he.others h) fun _ =>
        Settles.keeps_bind ((onArena_keeps _).mono fun _ _ he => he.others h) fun n =>
          settles_put h _
  · exact relocating_settles h e new r

theorem resizeWith_settles (form : ResizeForm) (h : UInt64) (old new : Layout) :
    Settles h (Storage.resizeWith form h old new : Act BlockStore (UInt64 × Int64)) := by
  intro s a s' hrun
  obtain ⟨s₁, hres, hsame⟩ := Act.resizeBy_run_ok (fun h => .of_reads (resolve_inert h).1)
    sameEntries_withSpace hrun
  obtain ⟨h₁, ⟨e, hl, hsize⟩, hothers⟩ := resize_settles _ h old new _ s a s₁ hres
  refine ⟨h₁, ⟨e, ?_, hsize⟩, fun k hk => ?_⟩
  · rw [hsame]
    exact hl
  · rw [hsame]
    exact hothers k hk

/-- An allocation answers the next handle number, whose entry holds the usable size it answers;
    the entry of every other handle is as it was. -/
theorem allocate_run_ok {l : Layout} {s s' : BlockStore} {a : UInt64 × Int64}
    (hrun : (allocate l).run s = .ok a s') :
    a.1 = s.nextHandle ∧ Holds s' a.1 a.2 ∧ Others a.1 s s' := by
  unfold allocate at hrun
  obtain ⟨⟨off, size⟩, s₁, halloc, hrun⟩ := Act.run_bind_eq_ok hrun
  obtain ⟨t, -, rfl⟩ := onArena_run_ok halloc
  rw [Act.run_bind_ok (Act.run_get _), Act.run_bind_ok (Act.run_modify _ _)] at hrun
  obtain ⟨h₁, hholds, hothers⟩ := settles_put _ _ _ _ _ hrun
  refine ⟨h₁, ?_, ?_⟩
  · rw [h₁]
    exact hholds
  · rw [h₁]
    exact hothers

theorem allocateZeroed_run_ok {l : Layout} {s s' : BlockStore} {a : UInt64 × Int64}
    (hrun : (Storage.allocateZeroed l : Act BlockStore (UInt64 × Int64)).run s = .ok a s') :
    a.1 = s.nextHandle ∧ Holds s' a.1 a.2 ∧ Others a.1 s s' := by
  obtain ⟨s₁, halloc, hsame⟩ := Act.allocateZeroed_run_ok (R := SameEntries)
    (fun h => .of_reads (resolve_inert h).1) (fun _ _ => rfl) hrun
  obtain ⟨h₁, ⟨e, hl, hsize⟩, hothers⟩ := allocate_run_ok halloc
  refine ⟨h₁, ⟨e, ?_, hsize⟩, fun k hk => ?_⟩
  · rw [hsame]
    exact hl
  · rw [hsame]
    exact hothers k hk

theorem deallocate_keeps (h : UInt64) (l : Layout) : Act.Keeps (Others h) (deallocate h l) :=
  (Act.Keeps.of_reads (lookup_reads h)).bind fun _ =>
    ((onArena_keeps _).mono fun _ _ he => he.others h).bind fun _ =>
      (Act.Keeps.modify fun _ _ hk => lookup_filter_of_ne hk).bind fun _ =>
        bump_keeps.mono fun _ _ he => he.others h

end BlockStore

/-! ## The other handles -/

namespace StoreCall

/-- The live handle a call names, if any. -/
def handle? : StoreCall → Option UInt64
  | deallocate h _ => some h
  | resize _ h _ _ => some h
  | _ => none

/-- On a well-formed store, a live handle that an answered call does not name keeps the usable
    size its entry holds: an allocation takes a fresh handle number, a free or a resize of
    another handle leaves its entry alone, and a compaction keeps the shape of every entry. -/
theorem holds_run {s : BlockStore} (hw : s.WellFormed) {h : UInt64} {n : Int64}
    (hh : BlockStore.Holds s h n) {c : StoreCall} (hc : c.handle? ≠ some h) (hans : c.op.Answers s) :
    BlockStore.Holds (c.run s) h n := by
  obtain ⟨e, hl, hsize⟩ := hh
  -- a live handle is below the next handle number
  have hfresh : h ≠ s.nextHandle := fun heq => by
    have := hw.handle_lt (h, e) (BlockStore.mem_of_lookup hl)
    rw [heq] at this
    exact lt_irrefl _ this
  obtain ⟨a, s', hrun⟩ := hans
  cases c with
  | allocate l =>
    obtain ⟨h₁, -, hothers⟩ := BlockStore.allocate_run_ok hrun
    rw [← op_run, Op.run, Act.leaves_of_ok hrun]
    exact ⟨e, by rw [hothers h (h₁ ▸ hfresh)]; exact hl, hsize⟩
  | allocateZeroed l =>
    obtain ⟨h₁, -, hothers⟩ := BlockStore.allocateZeroed_run_ok hrun
    rw [← op_run, Op.run, Act.leaves_of_ok hrun]
    exact ⟨e, by rw [hothers h (h₁ ▸ hfresh)]; exact hl, hsize⟩
  | deallocate h' l =>
    have hne : h ≠ h' := fun heq => hc (by rw [heq]; rfl)
    rw [← op_run, Op.run, Act.leaves_of_ok hrun]
    exact ⟨e, by rw [BlockStore.deallocate_keeps h' l s a s' hrun h hne]; exact hl, hsize⟩
  | resize form h' old new =>
    have hne : h ≠ h' := fun heq => hc (by rw [heq]; rfl)
    obtain ⟨-, -, hothers⟩ := BlockStore.resizeWith_settles form h' old new s a s' hrun
    rw [← op_run, Op.run, Act.leaves_of_ok hrun]
    exact ⟨e, by rw [hothers h hne]; exact hl, hsize⟩
  | compact =>
    obtain ⟨c, s₁, hcomp, hw₁, -, hshapes⟩ := hw.compact_run
    obtain ⟨e', hmem', -, hsize'⟩ := hshapes (h, e) (BlockStore.mem_of_lookup hl)
    rw [StoreCall.run, Act.leaves_of_ok hcomp]
    exact ⟨e', BlockStore.lookup_of_mem hw₁.keys_nodup hmem', hsize'.trans hsize⟩

end StoreCall

end BlockArena
