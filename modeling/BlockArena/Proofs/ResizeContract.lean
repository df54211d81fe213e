import BlockArena.Proofs.RememberedSize

/-! # What a resize keeps

A resize in one of the eight forms moves an allocation to a new layout and keeps one region of
its bytes. Its promise (`ResizeForm.Carries`): the usable size it answers holds the new layout,
the kept region reads at its destination as it read at its source, and a zeroed form leaves every
other usable byte zero. The caller's side (`ResizeForm.Admits`): a growing form does not shrink,
a shrinking one does not grow, and a form's own region fits the two sizes.

Every storage builds the eight forms from a plain resize that keeps a region, followed for a
zeroed form by clears (`resizeBy`), so the promise is proved once (`resizeBy_carries`) from what
each plain resize does with the region: a block storage (`BlockStore.WellFormed.resize_carried`),
an address storage (`AddressStore.resize_carried`), an inline storage
(`InlineStore.resize_carried`), and a storage that remembers sizes (`Sized.keepsResize`). The
heap storage is in `HeapResize`. An inline storage's buffer keeps its size through every call
(`InlineStore.backed_run`).
-/

set_option autoImplicit false

namespace BlockArena

namespace Memory

/-- The byte `off` past an address: a byte of memory for an arena offset; the null and the
    dangling address hold no data. -/
def byteAt (m : Space) (p : Addr) (off : Int) : UInt8 :=
  match p with
  | .offset base => m.byteAt (base + off)
  | _ => 0

@[simp] theorem byteAt_dangling (m : Space) (off : Int) : byteAt m .dangling off = 0 := rfl

theorem byteAt_offset (m : Space) {base off : Int} (h0 : 0 ≤ base + off)
    (hend : base + off < m.size) :
    byteAt m (.offset base) off = Buffer.byteAt m.buffer (base + off).toNat :=
  Space.byteAt_of_mem m h0 hend

/-- A clear that passes its checks clears `[lo, hi)` past its address, or changes nothing when
    that run is empty. -/
theorem eq_zero_of_clear {m m' : Space} {p : Addr} {lo hi : Int64} (h : clear m p lo hi = .ok m') :
    m' = if hi ≤ lo then m else zero m p lo.toInt hi.toInt := by
  unfold clear at h
  split at h
  · cases h
    rw [if_pos ‹_›]
  · rw [if_neg ‹_›]
    cases h1 : checkRun p lo.toInt (hi - lo) <;> cases h2 : checkMapped p (hi - lo) <;>
      simp_all [bind, Except.bind, pure, Except.pure]

section Clear

variable {m m' : Space} {p : Addr} {lo hi : Int64}

theorem size_of_clear (h : clear m p lo hi = .ok m') : m'.size = m.size := by
  rw [eq_zero_of_clear h]
  split
  · rfl
  · cases p with
    | offset base => exact Space.size_fill0 _ _ _
    | null => rfl
    | dangling => rfl

/-- A clear that passes its checks zeroes the bytes `[lo, hi)` past its address, wherever they
    lie, and leaves every other byte alone. -/
theorem byteAt_clear (h : clear m p lo hi = .ok m') (j : Int) :
    byteAt m' p j = if lo.toInt ≤ j ∧ j < hi.toInt then 0 else byteAt m p j := by
  rw [eq_zero_of_clear h]
  split
  · rename_i hle
    have := Int64.le_iff_toInt_le.1 hle
    rw [if_neg (by omega)]
  · cases p with
    | offset base =>
      simp only [byteAt, zero]
      rw [Space.byteAt_fill0_any]
      by_cases hin : lo.toInt ≤ j ∧ j < hi.toInt
      · rw [if_pos (by omega), if_pos hin]
      · rw [if_neg (by omega), if_neg hin]
    | null => split <;> rfl
    | dangling => split <;> rfl

end Clear

end Memory

/-! ## The promise -/

/-- The bytes of region `r` read at its destination past `p'` in `m'` as they read at its source
    past `p` in `m`. -/
def Region.Carried (r : Region) (m : Space) (p : Addr) (m' : Space) (p' : Addr) : Prop :=
  ∀ i : Nat, (i : Int) < r.size.toInt →
    Memory.byteAt m' p' (r.dst.toInt + i) = Memory.byteAt m p (r.src.toInt + i)

namespace ResizeForm

/-- What the caller of a resize from `old` to `new` in `form` promises: neither size is negative,
    a growing form does not shrink and a shrinking one does not grow, and a form's own region
    fits the two sizes. -/
structure Admits (form : ResizeForm) (old new : Layout) : Prop where
  old_nonneg : 0 ≤ old.size.toInt
  new_nonneg : 0 ≤ new.size.toInt
  grows : form.grow = true → old.size.toInt ≤ new.size.toInt
  shrinks : form.grow = false → new.size.toInt ≤ old.size.toInt
  region : ∀ r, form.region = some r → r.Within old.size.toInt new.size.toInt

/-- The region a form keeps fits the two sizes: its own by the caller's promise, and the common
    prefix because the form grows or shrinks as it says. -/
theorem Admits.kept_within {form : ResizeForm} {old new : Layout} (ha : form.Admits old new) :
    (form.kept old new).Within old.size.toInt new.size.toInt := by
  cases hreg : form.region with
  | some r =>
    simp only [kept, hreg, Option.getD_some]
    exact ha.region r hreg
  | none =>
    simp only [kept, hreg, Option.getD_none, Region.prefixOf, Region.Within, Int64.toInt_zero]
    have := ha.old_nonneg
    have := ha.new_nonneg
    cases hg : form.grow with
    | true =>
      have := ha.grows hg
      simp only [ite_true]
      omega
    | false =>
      have := ha.shrinks hg
      simp only [Bool.false_eq_true, ite_false]
      omega

/-- What a resize in `form` from `old` to `new` promises of the allocation at `p'` with `n`
    usable bytes in `m'` that it answers, against the allocation at `p` in `m` it started from:
    the usable size holds the new layout, the kept region is carried, and a zeroed form leaves
    every other usable byte zero. -/
structure Carries (form : ResizeForm) (old new : Layout) (m : Space) (p : Addr) (m' : Space)
    (p' : Addr) (n : Int64) : Prop where
  holds : new.size.toInt ≤ n.toInt
  kept : (form.kept old new).Carried m p m' p'
  cleared : form.zeroed = true → ∀ j : Int, 0 ≤ j → j < n.toInt →
    j < (form.kept old new).dst.toInt ∨
      (form.kept old new).dst.toInt + (form.kept old new).size.toInt ≤ j →
    Memory.byteAt m' p' j = 0

end ResizeForm

/-- A resize of `h` in `s` keeps its promise: `h` stands for an allocation, and every answer
    `(h', n)` leaves `h'` standing for one that carries the kept region as `ResizeForm.Carries`
    says. -/
def Storage.KeepsResize {σ H : Type} [Storage σ H] (s : σ) (h : H) (form : ResizeForm)
    (old new : Layout) : Prop :=
  ∃ p, (Storage.resolve h : Act σ Addr).run s = .ok p s ∧
    ∀ h' n s', (Storage.resizeWith form h old new : Act σ (H × Int64)).run s = .ok (h', n) s' →
      ∃ p', (Storage.resolve h' : Act σ Addr).run s' = .ok p' s' ∧
        form.Carries old new (Storage.memory s) p (Storage.memory s') p' n

/-! ## The clears of a zeroed form -/

section Clears

variable {σ H : Type} {resolve : H → Act σ Addr} {memory : σ → Space}
  {setMemory : σ → Space → σ}

theorem clear_step_ok {p : Addr} {lo hi : Int64} {t t' : σ} {u : PUnit}
    (h : (do
      let m ← Act.ofExcept (Memory.clear (memory (← get)) p lo hi)
      modify fun s => setMemory s m : Act σ PUnit).run t = .ok u t') :
    ∃ m, Memory.clear (memory t) p lo hi = .ok m ∧ t' = setMemory t m := by
  rw [Act.run_bind_ok (Act.run_get t)] at h
  obtain ⟨m, t₁, hm, hmod⟩ := Act.run_bind_eq_ok h
  obtain ⟨hclear, rfl⟩ := Act.ofExcept_run_ok hm
  rw [Act.run_modify] at hmod
  cases hmod
  exact ⟨m, hclear, rfl⟩

/-- The clears of a zeroed form, at the address `p` of an allocation of `n` usable bytes, lead
    from `t` to `t'`: from the end of a kept prefix to `n`, or before a region's destination and
    then from its end to `n`. -/
def ClearsAround (memory : σ → Space) (setMemory : σ → Space → σ) (form : ResizeForm)
    (old new : Layout) (p : Addr) (n : Int64) (t t' : σ) : Prop :=
  match form.region with
  | none => ∃ m, Memory.clear (memory t) p (if form.grow then old.size else new.size) n = .ok m ∧
      t' = setMemory t m
  | some r => ∃ m₁ m₂, Memory.clear (memory t) p 0 r.dst = .ok m₁ ∧
      Memory.clear (memory (setMemory t m₁)) p (r.dst + r.size) n = .ok m₂ ∧
      t' = setMemory (setMemory t m₁) m₂

variable {resize : Bool → H → Layout → Layout → Region → Act σ (H × Int64)} {form : ResizeForm}
  {h h' : H} {old new : Layout} {n : Int64} {s s' : σ}

/-- A resize in a form that answers has run the plain resize with the same answer, and then, for
    a zeroed form, resolved the answered handle and cleared around the kept region. -/
theorem resizeBy_run_cases
    (hrun : (resizeBy resolve memory setMemory resize form h old new).run s = .ok (h', n) s') :
    ∃ s₁, (resize form.grow h old new (form.kept old new)).run s = .ok (h', n) s₁ ∧
      (form.zeroed = false ∧ s' = s₁ ∨
        form.zeroed = true ∧ ∃ p s₂, (resolve h').run s₁ = .ok p s₂ ∧
          ClearsAround memory setMemory form old new p n s₂ s') := by
  unfold resizeBy at hrun
  obtain ⟨⟨h₁, n₁⟩, s₁, hres, hrest⟩ := Act.run_bind_eq_ok hrun
  dsimp only at hrest
  cases hz : form.zeroed with
  | false =>
    simp only [hz, Bool.false_eq_true, ite_false, Act.run_pure] at hrest
    cases hrest
    exact ⟨_, hres, .inl ⟨rfl, rfl⟩⟩
  | true =>
    simp only [hz, ite_true] at hrest
    obtain ⟨p, s₂, hp, hrest⟩ := Act.run_bind_eq_ok hrest
    cases hreg : form.region with
    | none =>
      simp only [hreg] at hrest
      obtain ⟨u, s₃, hc, hrest⟩ := Act.run_bind_eq_ok hrest
      obtain ⟨m, hclear, rfl⟩ := clear_step_ok hc
      rw [Act.run_pure] at hrest
      cases hrest
      refine ⟨_, hres, .inr ⟨rfl, p, s₂, hp, ?_⟩⟩
      simp only [ClearsAround, hreg]
      exact ⟨m, hclear, rfl⟩
    | some r =>
      simp only [hreg] at hrest
      obtain ⟨u₁, s₃, hc₁, hrest⟩ := Act.run_bind_eq_ok hrest
      obtain ⟨m₁, hclear₁, rfl⟩ := clear_step_ok hc₁
      obtain ⟨u₂, s₄, hc₂, hrest⟩ := Act.run_bind_eq_ok hrest
      obtain ⟨m₂, hclear₂, rfl⟩ := clear_step_ok hc₂
      rw [Act.run_pure] at hrest
      cases hrest
      refine ⟨_, hres, .inr ⟨rfl, p, s₂, hp, ?_⟩⟩
      simp only [ClearsAround, hreg]
      exact ⟨m₁, m₂, hclear₁, hclear₂, rfl⟩

/-- A resize in a form answers what the plain resize answered, and keeps every preorder that
    resolving a handle and writing memory of the same size keep. -/
theorem resizeBy_run_sized {R : σ → σ → Prop} [Std.Refl R] [IsTrans σ R]
    (hresolve : ∀ h, Act.Keeps R (resolve h))
    (hset : ∀ t m, m.size = (memory t).size → R t (setMemory t m))
    (hrun : (resizeBy resolve memory setMemory resize form h old new).run s = .ok (h', n) s') :
    ∃ s₁, (resize form.grow h old new (form.kept old new)).run s = .ok (h', n) s₁ ∧ R s₁ s' := by
  obtain ⟨s₁, hres, hcases⟩ := resizeBy_run_cases hrun
  refine ⟨s₁, hres, ?_⟩
  rcases hcases with ⟨-, rfl⟩ | ⟨-, p, s₂, hp, hclears⟩
  · exact Std.Refl.refl _
  refine trans_of R (hresolve h' s₁ p s₂ hp) ?_
  cases hreg : form.region with
  | none =>
    simp only [ClearsAround, hreg] at hclears
    obtain ⟨m, hclear, rfl⟩ := hclears
    exact hset _ _ (Memory.size_of_clear hclear)
  | some r =>
    simp only [ClearsAround, hreg] at hclears
    obtain ⟨m₁, m₂, hclear₁, hclear₂, rfl⟩ := hclears
    exact trans_of R (hset _ _ (Memory.size_of_clear hclear₁))
      (hset _ _ (Memory.size_of_clear hclear₂))

/-- An allocation that clears answers what the allocation answered, and keeps every preorder
    that resolving a handle and writing memory of the same size keep. -/
theorem allocateZeroed_run_sized {H' : Type} [Storage σ H'] {R : σ → σ → Prop} [Std.Refl R]
    [IsTrans σ R] (hresolve : ∀ h : H', Act.Keeps R (Storage.resolve h : Act σ Addr))
    (hset : ∀ (t : σ) m, m.size = (Storage.memory (H := H') t).size →
      R t (Storage.setMemory (H := H') t m))
    {l : Layout} {s s' : σ} {a : H' × Int64}
    (hrun : (Storage.allocateZeroed l : Act σ (H' × Int64)).run s = .ok a s') :
    ∃ s₁, (Storage.allocate l : Act σ (H' × Int64)).run s = .ok a s₁ ∧ R s₁ s' := by
  unfold Storage.allocateZeroed at hrun
  obtain ⟨⟨h, n⟩, s₁, halloc, hrest⟩ := Act.run_bind_eq_ok hrun
  dsimp only at hrest
  obtain ⟨p, s₂, hp, hrest⟩ := Act.run_bind_eq_ok hrest
  obtain ⟨u, s₃, hz, hrest⟩ := Act.run_bind_eq_ok hrest
  obtain ⟨m, hclear, rfl⟩ := clear_step_ok hz
  rw [Act.run_pure] at hrest
  cases hrest
  exact ⟨_, halloc, trans_of R (hresolve h s₁ p s₂ hp) (hset _ _ (Memory.size_of_clear hclear))⟩

/-- A resize in a form carries what the plain resize it starts with carries, and the clears of a
    zeroed form, which lie around the kept region's destination, leave every other usable byte
    zero. The plain resize must answer an allocation that holds the new layout and that writing
    memory does not move. -/
theorem resizeBy_carries (hmem : ∀ t m, memory (setMemory t m) = m) {m : Space} {p : Addr}
    (hset : ∀ t m' p', (resolve h').run t = .ok p' t →
      (resolve h').run (setMemory t m') = .ok p' (setMemory t m'))
    {o : Int} (hwithin : (form.kept old new).Within o new.size.toInt)
    (hplain : ∀ s₁, (resize form.grow h old new (form.kept old new)).run s = .ok (h', n) s₁ →
      ∃ p', (resolve h').run s₁ = .ok p' s₁ ∧ new.size.toInt ≤ n.toInt ∧
        (form.kept old new).Carried m p (memory s₁) p')
    (hrun : (resizeBy resolve memory setMemory resize form h old new).run s = .ok (h', n) s') :
    ∃ p', (resolve h').run s' = .ok p' s' ∧ form.Carries old new m p (memory s') p' n := by
  obtain ⟨-, hdst, hsize, -, hend⟩ := hwithin
  have hnew := new.size.toInt_lt
  obtain ⟨s₁, hres, hcases⟩ := resizeBy_run_cases hrun
  obtain ⟨p', hp', hholds, hkept⟩ := hplain s₁ hres
  rcases hcases with ⟨hz, rfl⟩ | ⟨-, p₁, s₂, hp₁, hclears⟩
  · exact ⟨p', hp', hholds, hkept, fun hz' => absurd hz' (by simp only [hz, Bool.false_eq_true,
      not_false_eq_true])⟩
  -- the clears start where the plain resize left the allocation, and resolving changed nothing
  rw [hp'] at hp₁
  injection hp₁ with hpe hse
  rw [← hpe, ← hse] at hclears
  cases hreg : form.region with
  | none =>
    have hkept_eq : form.kept old new =
        Region.prefixOf (if form.grow = true then old.size else new.size) := by
      simp only [ResizeForm.kept, hreg, Option.getD_none]
    simp only [ClearsAround, hreg] at hclears
    obtain ⟨m₁, hclear, rfl⟩ := hclears
    rw [hkept_eq] at hdst hsize hend hkept
    simp only [Region.prefixOf, Int64.toInt_zero] at hdst hsize hend
    refine ⟨p', hset _ _ _ hp', hholds, fun i hi => ?_, fun _ j hj hjn hout => ?_⟩
    · rw [hkept_eq] at hi ⊢
      simp only [Region.prefixOf, Int64.toInt_zero] at hi ⊢
      rw [hmem, Memory.byteAt_clear hclear, if_neg (by omega)]
      exact hkept i hi
    · rw [hkept_eq] at hout
      simp only [Region.prefixOf, Int64.toInt_zero] at hout
      rw [hmem, Memory.byteAt_clear hclear, if_pos (by omega)]
  | some r =>
    have hkept_eq : form.kept old new = r := by
      simp only [ResizeForm.kept, hreg, Option.getD_some]
    simp only [ClearsAround, hreg] at hclears
    obtain ⟨m₁, m₂, hclear₁, hclear₂, rfl⟩ := hclears
    rw [hkept_eq] at hdst hsize hend hkept
    rw [hmem] at hclear₂
    have hsum : (r.dst + r.size).toInt = r.dst.toInt + r.size.toInt :=
      Word.toInt_add_of_fits ⟨by omega, by omega⟩
    refine ⟨p', hset _ _ _ (hset _ _ _ hp'), hholds, fun i hi => ?_, fun _ j hj hjn hout => ?_⟩
    · rw [hkept_eq] at hi ⊢
      rw [hmem, Memory.byteAt_clear hclear₂, if_neg (by rw [hsum]; omega),
        Memory.byteAt_clear hclear₁, if_neg (by rw [Int64.toInt_zero]; omega)]
      exact hkept i hi
    · rw [hkept_eq] at hout
      rw [hmem, Memory.byteAt_clear hclear₂, Memory.byteAt_clear hclear₁]
      rcases hout with hlo | hhi
      · rw [if_neg (by rw [hsum]; omega), if_pos (by rw [Int64.toInt_zero]; omega)]
      · rw [if_pos (by rw [hsum]; omega)]

end Clears

/-! ## A block storage -/

namespace BlockStore

/-- The `n` bytes from `start` lie in the arena's buffer, past its table. -/
def PastTable (a : Arena) (start n : Int) : Prop :=
  (a.tableLength : Int) ≤ start ∧ start + n ≤ a.bytes.size

/-- Every answer of `x` leaves `h` with an entry that holds, at the region's destination, the
    bytes that the region's source past `src` held before `x`, where both runs lie past the
    table. -/
def CarriesRegion {α : Type} (h : UInt64) (src : Int64) (r : Region) (x : Act BlockStore α) :
    Prop :=
  ∀ s a s', x.run s = .ok a s' → ∃ e', s'.entries.lookup h = some e' ∧
    (PastTable s.arena (src.toInt + r.src.toInt) r.size.toInt →
      PastTable s'.arena (e'.offset.toInt + r.dst.toInt) r.size.toInt →
      ∀ i : Nat, (i : Int) < r.size.toInt →
        Buffer.byteAt s'.arena.bytes (e'.offset.toInt + r.dst.toInt + i).toNat =
          Buffer.byteAt s.arena.bytes (src.toInt + r.src.toInt + i).toNat)

theorem moveRegion_run_ok {dst src : Int64} {r : Region} {s s' : BlockStore} {u : PUnit}
    (h : (moveRegion dst src r).run s = .ok u s') :
    s' = s.withSpace (Memory.copy s.space (.offset dst.toInt) r.dst.toInt (.offset src.toInt)
      r.src.toInt r.size.toInt) := by
  obtain ⟨m, hmove, rfl⟩ := moveRegion_run_eq h
  rw [Memory.eq_copy_of_move hmove]

section Steps

variable {α β : Type} {h : UInt64} {src : Int64} {r : Region} {x : Act BlockStore α}
  {g : α → Act BlockStore β}

/-- A step that writes nothing past the table, before steps that carry the region, leaves them
    the source's bytes. -/
theorem CarriesRegion.keeps_bind (hx : Act.Keeps (Spares fun _ => False) x)
    (hg : ∀ a, CarriesRegion h src r (g a)) : CarriesRegion h src r (x >>= g) := by
  intro s b s'' hrun
  obtain ⟨a, s', hxs, hgs⟩ := Act.run_bind_eq_ok hrun
  have hsp : s.arena.Spares (fun _ => False) s'.arena := hx s a s' hxs
  obtain ⟨e', hl, hcopy⟩ := hg a s' b s'' hgs
  refine ⟨e', hl, fun hsrc hdst i hi => ?_⟩
  obtain ⟨htab, hend⟩ := hsrc
  have hsrc' : PastTable s'.arena (src.toInt + r.src.toInt) r.size.toInt :=
    ⟨by rw [hsp.tableLength_eq]; exact htab, by rw [hsp.size_eq]; exact hend⟩
  rw [hcopy hsrc' hdst i hi]
  exact hsp.byteAt_eq _ (by omega) id

/-- A move to `off`, followed by steps that leave `h` at `off` and write nothing past the table,
    carries the region. -/
theorem CarriesRegion.move_bind {off : Int64} {g : PUnit → Act BlockStore β}
    (hg : ∀ a, Places h off (g a)) : CarriesRegion h src r (moveRegion off src r >>= g) := by
  intro s b s'' hrun
  obtain ⟨a, s', hxs, hgs⟩ := Act.run_bind_eq_ok hrun
  obtain ⟨⟨e', hl, hoff⟩, hsp⟩ := hg a s' b s'' hgs
  refine ⟨e', hl, fun hsrc hdst i hi => ?_⟩
  rw [moveRegion_run_ok hxs] at hsp
  obtain ⟨htab, hend⟩ := hsrc
  obtain ⟨htab', hend'⟩ := hdst
  rw [hoff] at htab' hend' ⊢
  have htab₁ := hsp.tableLength_eq
  have hsize : (s''.arena.bytes.size : Int) = s.space.size := by
    rw [hsp.size_eq]
    exact congrArg Nat.cast (Memory.size_copy _ _ _ _ _ _)
  -- the steps after the move spare the destination, which holds the copy
  rw [hsp.byteAt_eq _ (by rw [← htab₁]; omega) id]
  exact Memory.byteAt_copy_of_mem s.space (by omega) (by omega) (by omega)
    (by show _ ≤ (s.arena.bytes.size : Int); omega) hi

end Steps

theorem relocating_carries (h : UInt64) (e : BlockEntry) (new : Layout) (r : Region) :
    CarriesRegion h e.offset r (do
      let (off, n) ← onArena (Arena.alloc new)
      moveRegion off e.offset r
      onArena (Arena.dealloc e.offset e.layout)
      put h ⟨off, new, n⟩
      bump
      pure (h, n) : Act BlockStore (UInt64 × Int64)) :=
  CarriesRegion.keeps_bind (onArena_spares (Arena.alloc_stays new)) fun ⟨_, _⟩ =>
    CarriesRegion.move_bind fun _ =>
      Places.keeps_bind (onArena_spares (Arena.dealloc_stays _ _)) fun _ => places_put h _

/-- A resize of a live handle, in place or moved, leaves its entry holding at the region's
    destination the bytes the region's source held in the entry it had. -/
theorem resize_carries {s s' : BlockStore} {h : UInt64} {e : BlockEntry}
    (hl : s.entries.lookup h = some e) (grow : Bool) (old new : Layout) (r : Region)
    {a : UInt64 × Int64} (hrun : (resize grow h old new r).run s = .ok a s') :
    ∃ e', s'.entries.lookup h = some e' ∧
      (PastTable s.arena (e.offset.toInt + r.src.toInt) r.size.toInt →
        PastTable s'.arena (e'.offset.toInt + r.dst.toInt) r.size.toInt →
        ∀ i : Nat, (i : Int) < r.size.toInt →
          Buffer.byteAt s'.arena.bytes (e'.offset.toInt + r.dst.toInt + i).toNat =
            Buffer.byteAt s.arena.bytes (e.offset.toInt + r.src.toInt + i).toNat) := by
  unfold resize at hrun
  rw [Act.run_bind_ok (lookup_run_of_some hl)] at hrun
  refine (?_ : CarriesRegion h e.offset r _) s a s' hrun
  refine CarriesRegion.keeps_bind (.of_reads .get) fun st => ?_
  dsimp only
  simp only [pure_bind]
  split
  · split
    · refine CarriesRegion.keeps_bind (onArena_spares (Arena.growInPlace_stays _ _ _))
        fun ⟨n, ok⟩ => ?_
      cases ok with
      | false => exact relocating_carries h e new r
      | true => exact CarriesRegion.move_bind fun _ => places_put h _
    · exact CarriesRegion.move_bind fun _ =>
        Places.keeps_bind (onArena_spares (Arena.shrinkInPlace_stays _ _ _)) fun _ =>
          places_put h _
  · exact relocating_carries h e new r

theorem resolve_withSpace {h : UInt64} {t : BlockStore} {p : Addr}
    (hr : (resolve h).run t = .ok p t) (m : Space) :
    (resolve h).run (t.withSpace m) = .ok p (t.withSpace m) := by
  by_cases hd : h = danglingHandle
  · simp only [resolve, hd, ite_true, Act.run_pure] at hr ⊢
    cases hr
    rfl
  · cases hl : t.entries.lookup h with
    | none =>
      simp only [resolve, hd, ite_false] at hr
      rw [Act.run_bind_error (lookup_run_of_none hl)] at hr
      cases hr
    | some e =>
      rw [resolve_run_of_lookup hd hl] at hr
      cases hr
      exact resolve_run_of_lookup hd hl

variable {s : BlockStore} {h : UInt64} {e : BlockEntry} {old new : Layout}

/-- A plain resize of a live handle to a layout the arena can serve, keeping a region that reads
    inside its entry and writes inside the new layout, leaves the handle with an entry in the
    buffer that holds the new layout and holds the region's bytes at its destination. -/
theorem WellFormed.resize_carried (hw : s.WellFormed) (hl : s.entries.lookup h = some e)
    (hnew : s.arena.Sized new) {r : Region} (hr : r.Within e.size.toInt new.size.toInt)
    {grow : Bool} {h' : UInt64} {n : Int64} {s₁ : BlockStore}
    (hrun : (resize grow h old new r).run s = .ok (h', n) s₁) :
    ∃ p', (Storage.resolve h' : Act BlockStore Addr).run s₁ = .ok p' s₁ ∧
      new.size.toInt ≤ n.toInt ∧ r.Carried s.space (.offset e.offset.toInt) s₁.space p' := by
  rcases hw.resize_cases hl hnew hr with ⟨f, -, hf⟩ | ⟨n', s', hrun', hres⟩
  · rw [hf] at hrun
    cases hrun
  rw [hrun'] at hrun
  cases hrun
  obtain ⟨e', hl', hn⟩ := hres.entry
  have hw' := hres.wellFormed
  obtain ⟨htab, hend⟩ := hw.entry_bounds (mem_of_lookup hl)
  obtain ⟨htab', hend'⟩ := hw'.entry_bounds (mem_of_lookup hl')
  have hbuf := hw.geometry.bytes_size
  have hbuf' := hw'.geometry.bytes_size
  have hsize : n.toInt = e'.size.toInt := by rw [hn]
  have hholds := hres.holds
  obtain ⟨hsrc0, hdst0, hsize0, hsrc, hdst⟩ := hr
  obtain ⟨e'', hl'', hcopy⟩ := resize_carries hl grow old new r hrun'
  rw [hl'] at hl''
  cases hl''
  refine ⟨_, hw'.resolve_run hl', hholds, fun i hi => ?_⟩
  rw [Memory.byteAt_offset _ (by omega) (by show _ < (s₁.arena.bytes.size : Int); omega),
    Memory.byteAt_offset _ (by omega) (by show _ < (s.arena.bytes.size : Int); omega),
    ← Int.add_assoc, ← Int.add_assoc]
  exact hcopy ⟨by omega, by omega⟩ ⟨by omega, by omega⟩ i hi

/-- A resize of a live handle of a well-formed store keeps its promise, in every form the caller
    admits with an old size no larger than the entry's and a new layout the arena can serve. -/
theorem WellFormed.keepsResize (hw : s.WellFormed) (hl : s.entries.lookup h = some e)
    (hold : old.size.toInt ≤ e.size.toInt) (hnew : s.arena.Sized new) {form : ResizeForm}
    (ha : form.Admits old new) : Storage.KeepsResize s h form old new := by
  have hwithin := ha.kept_within
  have hr : (form.kept old new).Within e.size.toInt new.size.toInt := by
    obtain ⟨h₁, h₂, h₃, h₄, h₅⟩ := hwithin
    exact ⟨h₁, h₂, h₃, by omega, h₅⟩
  refine ⟨_, hw.resolve_run hl, fun h' n s' hrun => ?_⟩
  exact resizeBy_carries (fun _ _ => rfl) (fun t m p' hp' => resolve_withSpace hp' m) hwithin
    (fun s₁ hplain => hw.resize_carried hl hnew hr hplain) hrun

end BlockStore

/-! ## An address storage -/

namespace AddressStore

variable {s : AddressStore} {live : List Extent} {x : Extent} {old new : Layout}

/-- A plain resize of a tracked run whose blocks the old layout asks for, to a layout the arena
    can serve, keeping a region that reads inside the run and writes inside the new layout,
    answers a fresh run in the buffer that holds the new layout and the region's bytes. -/
theorem resize_carried (ht : Tracks s.arena live) (hx : x ∈ live)
    (hold : (s.arena.blocksFor old.size).toInt = x.count) (hnew : s.arena.Sized new) {r : Region}
    (hr : r.Within (x.count * s.arena.blockSize.toInt) new.size.toInt) {grow : Bool} {p' : Addr}
    {n : Int64} {s₁ : AddressStore}
    (hrun : (resize grow (.offset (x.addr s.arena).toInt) old new r).run s = .ok (p', n) s₁) :
    new.size.toInt ≤ n.toInt ∧ r.Carried s.space (.offset (x.addr s.arena).toInt) s₁.space p' := by
  rcases resize_cases ht hx hold hnew hr grow with
    ⟨f, hf⟩ | ⟨y, n', s', hrun', hle, -, -, hm⟩
  · rw [hf] at hrun
    cases hrun
  rw [hrun'] at hrun
  cases hrun
  have hy : y ∈ (y :: live).erase x := (List.mem_erase_of_ne hm.ne).2 List.mem_cons_self
  obtain ⟨htaby, hendy⟩ := hm.tracks.run_bounds hy
  obtain ⟨htabx, hendx⟩ := ht.run_bounds hx
  rw [hm.sameBlocks.addr_eq] at htaby hendy
  rw [hm.sameBlocks.blockSize_eq] at hendy
  have hsize := hm.size_eq
  obtain ⟨hsrc0, hdst0, hsize0, hsrc, hdst⟩ := hr
  refine ⟨hle, fun i hi => ?_⟩
  rw [Memory.byteAt_offset _ (by omega) (by show _ < (s₁.arena.bytes.size : Int); omega),
    Memory.byteAt_offset _ (by omega) (by show _ < (s.arena.bytes.size : Int); omega),
    ← Int.add_assoc, ← Int.add_assoc]
  exact hm.copies i hi

/-- A resize of a tracked run whose blocks the old layout asks for keeps its promise, in every
    form the caller admits with an old size no larger than the run and a new layout the arena
    can serve. -/
theorem keepsResize (ht : Tracks s.arena live) (hx : x ∈ live)
    (hold : (s.arena.blocksFor old.size).toInt = x.count)
    (hle : old.size.toInt ≤ x.count * s.arena.blockSize.toInt) (hnew : s.arena.Sized new)
    {form : ResizeForm} (ha : form.Admits old new) :
    Storage.KeepsResize s (.offset (x.addr s.arena).toInt : Addr) form old new := by
  have hwithin := ha.kept_within
  have hr : (form.kept old new).Within (x.count * s.arena.blockSize.toInt) new.size.toInt := by
    obtain ⟨h₁, h₂, h₃, h₄, h₅⟩ := hwithin
    exact ⟨h₁, h₂, h₃, by omega, h₅⟩
  refine ⟨_, rfl, fun p' n s' hrun => ?_⟩
  refine resizeBy_carries (fun _ _ => rfl) (fun t m p'' hp => ?_) hwithin
    (fun s₁ hplain => ⟨p', rfl, resize_carried ht hx hold hnew hr hplain⟩) hrun
  cases hp
  rfl

end AddressStore

/-! ## An inline storage -/

namespace InlineStore

/-- The buffer holds every byte the storage hands out: its capacity in bytes. -/
def Backed (s : InlineStore) : Prop := s.capacityBytes.toInt ≤ s.bytes.size

theorem create_backed {e : Elem} {capacity : Int64} {s : InlineStore}
    (h : create e capacity = .ok s) : s.Backed := by
  unfold create at h
  split at h
  · cases h
  · cases h
    show (e.size * capacity).toInt ≤
      ((Buffer.zeros (e.size * capacity).toNatClampNeg).size : Int)
    rw [Buffer.size_zeros, ← Int64.toNat_toInt]
    omega

variable {s : InlineStore} {old new : Layout}

/-- An empty buffer is the dangling address and hands out no bytes; any other starts at offset
    `0`. -/
theorem base_cases (s : InlineStore) :
    (s.base = .dangling ∧ s.capacityBytes.toInt = 0) ∨ s.base = .offset 0 := by
  unfold base capacityBytes
  split
  · rename_i h0
    rw [h0, Int64.mul_zero]
    exact .inl ⟨rfl, rfl⟩
  · exact .inr rfl

/-- Two states whose buffers hold the same number of bytes. -/
def SameBytes (s s' : InlineStore) : Prop := s'.bytes.size = s.bytes.size

instance : Std.Refl SameBytes := ⟨fun _ => rfl⟩

instance : IsTrans InlineStore SameBytes := ⟨fun _ _ _ h₁ h₂ => h₂.trans h₁⟩

theorem sameBytes_withSpace (s : InlineStore) {m : Space} (hm : m.size = s.space.size) :
    SameBytes s (s.withSpace m) :=
  hm

/-- A plain resize answers the whole buffer and keeps its size and its start; it moves the kept
    region, or leaves memory alone for a region that stays where it is. -/
theorem resize_run_moves {grow : Bool} {h : Unit} {r : Region} {a : Unit × Int64}
    {s' : InlineStore} (hrun : (resize grow h old new r).run s = .ok a s') :
    a.2 = s.capacityBytes ∧ s'.base = s.base ∧ SameBytes s s' ∧
      (Memory.move s.space s.base r.dst.toInt s.base r.src.toInt r.size = .ok s'.space ∨
        r.src = r.dst ∧ s'.space = s.space) := by
  obtain ⟨-, rfl, ⟨-, m, hmove, rfl⟩ | ⟨hrd, rfl⟩⟩ := resize_run_cases hrun
  · refine ⟨rfl, rfl, ?_, .inl hmove⟩
    -- a move copies inside the memory it was given, so the buffer keeps its size
    show m.buffer.size = s.bytes.size
    rw [Memory.eq_copy_of_move hmove]
    exact Memory.size_copy _ _ _ _ _ _
  · exact ⟨rfl, rfl, rfl, .inr ⟨hrd, rfl⟩⟩

/-- A plain resize whose region lies inside the buffer carries it: a move copies it, and a region
    that stays where it is needs none. The buffer keeps its size. -/
theorem resize_run_carried (hb : s.Backed) {r : Region}
    (hr : r.Within s.capacityBytes.toInt s.capacityBytes.toInt) {grow : Bool} {h : Unit}
    {a : Unit × Int64} {s' : InlineStore} (hrun : (resize grow h old new r).run s = .ok a s') :
    a.2 = s.capacityBytes ∧ s'.base = s.base ∧ s'.bytes.size = s.bytes.size ∧
      r.Carried s.space s.base s'.space s.base := by
  obtain ⟨hsrc0, hdst0, hsize0, hsrc, hdst⟩ := hr
  unfold Backed at hb
  obtain ⟨ha, hbase, hbytes, hshift⟩ := resize_run_moves hrun
  unfold SameBytes at hbytes
  refine ⟨ha, hbase, hbytes, fun i hi => ?_⟩
  rcases hshift with hmove | ⟨hrd, hspace⟩
  · rcases base_cases s with ⟨hb0, -⟩ | hb0
    · -- an empty buffer hands out no bytes
      rw [hb0, Memory.byteAt_dangling, Memory.byteAt_dangling]
    · rw [hb0] at hmove ⊢
      have hcopy := Memory.eq_copy_of_move hmove
      rw [Memory.byteAt_offset _ (by omega) (by show _ < (s'.bytes.size : Int); omega),
        Memory.byteAt_offset _ (by omega) (by show _ < (s.bytes.size : Int); omega),
        ← Int.add_assoc, ← Int.add_assoc, hcopy]
      exact Memory.byteAt_copy_of_mem s.space (by omega) (by show _ ≤ (s.bytes.size : Int); omega)
        (by omega) (by show _ ≤ (s.bytes.size : Int); omega) hi
  · -- the region stays where it is
    rw [hspace, hrd]

theorem size_le_of_fits {l : Layout} (h : s.fits l = .ok ()) :
    l.size.toInt ≤ s.capacityBytes.toInt := by
  unfold fits at h
  split at h
  · cases h
  · rename_i hlt
    have := mt Int64.lt_iff_toInt_lt.2 hlt
    omega

/-- A plain resize, which checks that a grown layout fits and then shifts the kept region inside
    the buffer, answers the whole buffer, which holds the new layout, with the region's bytes. -/
theorem resize_carried (hb : s.Backed) (hold : old.size.toInt ≤ s.capacityBytes.toInt)
    {r : Region} (hr : r.Within old.size.toInt new.size.toInt) {grow : Bool}
    (hshrink : grow = false → new.size.toInt ≤ old.size.toInt) {a : Unit × Int64}
    {s₁ : InlineStore} (hrun : (resize grow () old new r).run s = .ok a s₁) :
    new.size.toInt ≤ a.2.toInt ∧ s₁.base = s.base ∧ r.Carried s.space s.base s₁.space s.base := by
  obtain ⟨hsrc0, hdst0, hsize0, hsrc, hdst⟩ := hr
  have hfits := (resize_run_cases hrun).1
  -- a grown layout passed the fit check; a shrunk one is no larger than the old
  have hnew : new.size.toInt ≤ s.capacityBytes.toInt := by
    cases grow with
    | true => exact size_le_of_fits (hfits rfl)
    | false =>
      have := hshrink rfl
      omega
  obtain ⟨ha, hbase, hsize, hcarried⟩ :=
    resize_run_carried hb ⟨hsrc0, hdst0, hsize0, by omega, by omega⟩ hrun
  rw [ha]
  exact ⟨hnew, hbase, hcarried⟩

/-- A resize of an inline storage whose buffer holds its capacity keeps its promise, in every
    form the caller admits with an old size no larger than the buffer. -/
theorem keepsResize (hb : s.Backed) (hold : old.size.toInt ≤ s.capacityBytes.toInt)
    {form : ResizeForm} (ha : form.Admits old new) : Storage.KeepsResize s () form old new := by
  have hwithin := ha.kept_within
  refine ⟨s.base, rfl, fun h' n s' hrun => ?_⟩
  refine resizeBy_carries (fun _ _ => rfl) (fun t m p hp => ?_) hwithin
    (fun s₁ hplain => ?_) hrun
  · change EStateM.Result.ok t.base t = .ok p t at hp
    cases hp
    rfl
  · obtain ⟨hholds, hbase, hcarried⟩ := resize_carried hb hold hwithin ha.shrinks hplain
    exact ⟨s.base, by rw [← hbase]; rfl, hholds, hcarried⟩

/-! ### Every call keeps the buffer backed -/

theorem allocate_keeps_bytes (l : Layout) : Act.Keeps SameBytes (allocate l) := by
  intro s a s' hrun
  obtain ⟨-, rfl⟩ := allocate_run_eq hrun
  rfl

theorem resize_keeps_bytes (grow : Bool) (h : Unit) (old new : Layout) (r : Region) :
    Act.Keeps SameBytes (resize grow h old new r) :=
  fun _ _ _ hrun => (resize_run_moves hrun).2.2.1

/-- No answered call changes the number of bytes in the buffer: the only writes are clears and
    moves inside it. -/
theorem call_keeps_bytes (call : Storage.Call Unit) :
    Act.Keeps SameBytes (call.op (σ := InlineStore)).act := by
  cases call with
  | dangling align => exact .of_reads (.pure _)
  | resolve h => exact .of_reads base_inert.1
  | sizeOf h => exact .of_reads (Act.Inert.get.bind fun _ => .pure _).1
  | allocate l => exact allocate_keeps_bytes l
  | allocateZeroed l =>
    intro s a s' hrun
    obtain ⟨s₁, halloc, hsame⟩ :=
      allocateZeroed_run_sized (fun _ => .of_reads base_inert.1) sameBytes_withSpace hrun
    exact trans_of SameBytes (allocate_keeps_bytes l s a s₁ halloc) hsame
  | deallocate h l =>
    show Act.Keeps SameBytes (deallocate h l)
    unfold deallocate bump
    refine (Act.Keeps.modify fun s => ?_).bind fun _ => Act.Keeps.modify fun s => ?_ <;> rfl
  | resize form h old new =>
    rintro s ⟨h', n⟩ s' hrun
    obtain ⟨s₁, hres, hsame⟩ :=
      resizeBy_run_sized (fun _ => .of_reads base_inert.1) sameBytes_withSpace hrun
    exact trans_of SameBytes (resize_keeps_bytes _ _ _ _ _ s _ s₁ hres) hsame

/-- Every answered call keeps the buffer holding the storage's capacity: neither the capacity
    nor the buffer changes size. -/
theorem backed_run (hb : s.Backed) (call : Storage.Call Unit)
    (hans : (call.op (σ := InlineStore)).Answers s) :
    ((call.op (σ := InlineStore)).run s).Backed := by
  obtain ⟨a, s', hrun⟩ := hans
  rw [Op.run, Act.leaves_of_ok hrun]
  have hcap : s'.capacityBytes = s.capacityBytes := call_keeps call s a s' hrun
  have hbytes : s'.bytes.size = s.bytes.size := call_keeps_bytes call s a s' hrun
  unfold Backed at hb ⊢
  rw [hcap, hbytes]
  exact hb

end InlineStore

/-! ## A storage that remembers sizes -/

namespace Sized

variable {σ H : Type} [Storage σ H]

/-- A storage that remembers sizes resizes as the storage it wraps: it keeps the promise
    whenever the wrapped storage does. -/
theorem keepsResize {s : Sized σ} {h : H} {form : ResizeForm} {old new : Layout}
    (hk : Storage.KeepsResize s.inner h form old new) : Storage.KeepsResize s h form old new := by
  obtain ⟨p, hp, hres⟩ := hk
  refine ⟨p, ?_, fun h' n s' hrun => ?_⟩
  · show (onInner (Storage.resolve h)).run s = .ok p s
    unfold onInner
    rw [Act.run_focus, hp]
  · have hrec : (record (Storage.resizeWith form h old new : Act σ (H × Int64))).run s =
        .ok (h', n) s' := hrun
    rw [record_run] at hrec
    split at hrec
    · rename_i a t hinner
      cases hrec
      obtain ⟨p', hp', hc⟩ := hres h' n t hinner
      refine ⟨p', ?_, hc⟩
      show (onInner (Storage.resolve h')).run (⟨t, n⟩ : Sized σ) = .ok p' ⟨t, n⟩
      unfold onInner
      rw [Act.run_focus, hp']
    · cases hrec

end Sized

end BlockArena
