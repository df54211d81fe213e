import BlockArena.Proofs.Settling

/-! # Compaction packs an arena whose blocks all fit every alignment

When every block of the arena starts at an address that every live entry's alignment divides,
first fit never skips a block for alignment, and a compaction packs the live runs into a prefix.

* The walk that reports the runs of an arena whose used blocks are exactly `[0, u)` finds one used
  run `[0, u)` and one free run `[u, blockCount)` (`Arena.Geometry.runs_of_prefix`), so the
  detailed statistics count at most one free run, the one at the end
  (`Arena.Geometry.report_of_prefix`).
* The pass visits the entries in address order. Before each step the table holds a packed prefix
  `[0, P)` and, above it, the runs of the entries still to visit (`Arena.PackedBelow`); the first
  fit for the next entry is then `P` itself, and after the step the prefix has grown by the
  entry's blocks (`BlockStore.WellFormed.compactOne_packs`, `BlockStore.WellFormed.foldCompact_packs`).

Together: after a compaction the live runs fill exactly `[0, usedBlocks)`, in the order of their
old addresses, and any free run is the one at the end (`compaction_packs_aligned_arena`).
-/

set_option autoImplicit false

namespace BlockArena

/-! ## The runs of a packed arena -/

namespace DetailedStats

theorem freeRunCount_foldl : ∀ (runs : List Int64) (d : DetailedStats),
    (runs.foldl addFreeRun d).freeRunCount = d.freeRunCount + Int64.ofNat runs.length
  | [], d => by simp [Int64.add_zero]
  | r :: runs, d => by
    rw [List.foldl_cons, freeRunCount_foldl runs, List.length_cons, Int64.ofNat_add, addFreeRun,
      Int64.add_assoc, Int64.add_comm (Int64.ofNat runs.length)]
    rfl

theorem freeRunCount_ofRuns (base : Stats) (runs : List Int64) :
    (ofRuns base runs).freeRunCount = Int64.ofNat runs.length := by
  rw [ofRuns, freeRunCount_foldl]
  exact Int64.zero_add _

end DetailedStats

namespace Arena

/-- Walking blocks `0 … k - 1` whose bits are set exactly below `u` gives, latest first, a free
    run `[u, k)` when `u < k`, then a used run `[0, min k u)` when it has a block. -/
theorem foldl_pushBlock_prefix {bit : Nat → Bool} {n u : Nat}
    (hbit : ∀ b, b < n → bit b = decide (b < u)) :
    ∀ k, k ≤ n → (List.range k).foldl (fun rs b => pushBlock rs b (bit b)) [] =
      (if u < k then [⟨u, k - u, true⟩] else []) ++
        (if 0 < min k u then [⟨0, min k u, false⟩] else [])
  | 0, _ => by simp
  | k + 1, hk => by
    rw [List.range_succ, List.foldl_append, foldl_pushBlock_prefix hbit k (by omega),
      List.foldl_cons, List.foldl_nil, hbit k (by omega)]
    rcases lt_trichotomy k u with hlt | rfl | hgt
    · -- block `k` is used: the used run grows
      rw [Nat.min_eq_left hlt.le, Nat.min_eq_left (show k + 1 ≤ u by omega),
        if_neg (show ¬u < k by omega), if_neg (show ¬u < k + 1 by omega),
        if_pos (show 0 < k + 1 by omega), decide_eq_true hlt]
      rcases Nat.eq_zero_or_pos k with rfl | hk0
      · simp [pushBlock]
      · simp [pushBlock, hk0]
    · -- block `k` is the first free one: a free run starts
      rw [Nat.min_self, Nat.min_eq_right (show k ≤ k + 1 by omega), if_neg (Nat.lt_irrefl k),
        if_pos (Nat.lt_succ_self k), decide_eq_false (Nat.lt_irrefl k)]
      rcases Nat.eq_zero_or_pos k with rfl | hk0
      · simp [pushBlock]
      · simp [pushBlock, hk0]
    · -- past the used run, the free run grows
      rw [Nat.min_eq_right hgt.le, Nat.min_eq_right (show u ≤ k + 1 by omega), if_pos hgt,
        if_pos (show u < k + 1 by omega), decide_eq_false (show ¬k < u by omega)]
      simp [pushBlock]
      omega

namespace Geometry

variable {a : Arena} (g : a.Geometry) {u : Nat} (hu : (u : Int) ≤ a.blockCount.toInt)
  (hbits : ∀ b : Nat, (b : Int) < a.blockCount.toInt → (a.usedBit b = true ↔ b < u))
include g hu hbits

/-- An arena whose used blocks are exactly those below `u` reports a used run `[0, u)` and a
    free run `[u, blockCount)`, each where it has a block. -/
theorem runs_of_prefix :
    a.runs = .ok ((if 0 < u then [⟨0, u, false⟩] else []) ++
      (if (u : Int) < a.blockCount.toInt then [⟨u, a.blockCount.toNatClampNeg - u, true⟩]
        else [])) := by
  have hn : (a.blockCount.toNatClampNeg : Int) = a.blockCount.toInt := by
    rw [← Int64.toNat_toInt]
    have := g.blockCount_pos
    omega
  have hbit : ∀ b, b < a.blockCount.toNatClampNeg → a.usedBit b = decide (b < u) := by
    intro b hb
    rw [Bool.eq_iff_iff, hbits b (by omega), decide_eq_true_iff]
  have htable := g.table_covers
  unfold runs
  rw [if_neg (by omega), foldl_pushBlock_prefix hbit _ le_rfl, Nat.min_eq_right (by omega)]
  by_cases hlt : (u : Int) < a.blockCount.toInt
  · rw [if_pos (by omega), if_pos hlt]
    by_cases hu0 : 0 < u
    · simp [hu0]
    · simp [hu0]
  · rw [if_neg (by omega), if_neg hlt]
    by_cases hu0 : 0 < u
    · simp [hu0]
    · simp [hu0]

/-- Such an arena reports at most one free run in its detailed statistics, and a free run it
    walks starts at `u` and ends the arena. -/
theorem report_of_prefix :
    ∃ rs d, a.runs = .ok rs ∧ a.detailedStats = .ok d ∧ d.freeRunCount.toInt ≤ 1 ∧
      ∀ r ∈ rs, r.free = true → r.first = u ∧ (r.first + r.count : Int) = a.blockCount.toInt := by
  have hn : (a.blockCount.toNatClampNeg : Int) = a.blockCount.toInt := by
    rw [← Int64.toNat_toInt]
    have := g.blockCount_pos
    omega
  have hruns := runs_of_prefix g hu hbits
  refine ⟨_, _, hruns, by rw [detailedStats, hruns]; rfl, ?_, fun r hr hfree => ?_⟩
  · rw [DetailedStats.freeRunCount_ofRuns, List.length_map]
    by_cases hlt : (u : Int) < a.blockCount.toInt
    · rw [if_pos hlt]
      by_cases hu0 : 0 < u
      · simp [hu0]
      · simp [hu0]
    · rw [if_neg hlt]
      by_cases hu0 : 0 < u
      · simp [hu0]
      · simp [hu0]
  · -- the used run is not free, so `r` is the run past `u`
    rw [List.mem_append] at hr
    rcases hr with hr | hr
    · split_ifs at hr with hu0
      · rw [List.mem_singleton] at hr
        rw [hr] at hfree
        exact Bool.noConfusion hfree
      · simp at hr
    · split_ifs at hr with hlt
      · rw [List.mem_singleton] at hr
        subst hr
        exact ⟨rfl, by simp only; omega⟩
      · simp at hr

end Geometry

/-- Every block of the arena starts at an address aligned to `align`. -/
def AlignsBlocks (a : Arena) (align : UInt64) : Prop :=
  ∀ b : Nat, b < a.blockCount.toNatClampNeg → a.blockAligned (Int64.ofNat b) align = true

instance (a : Arena) (align : UInt64) : Decidable (a.AlignsBlocks align) :=
  inferInstanceAs (Decidable (∀ b : Nat, b < _ → _))

/-! Where a block lies and what run an answer names do not read the buffer. -/

@[simp] theorem blockOffset_withBytes (a : Arena) (bytes : ByteArray) (b : Int64) :
    ({ a with bytes := bytes } : Arena).blockOffset b = a.blockOffset b := rfl

@[simp] theorem runAt_withBytes (a : Arena) (bytes : ByteArray) (off size : Int64) :
    ({ a with bytes := bytes } : Arena).runAt off size = a.runAt off size := rfl

/-- The table of `a` holds a packed prefix `[0, P)` and, besides it, exactly the runs of the
    entries `todo`. -/
def PackedBelow (a : Arena) (P : Nat) (todo : List (UInt64 × BlockEntry)) : Prop :=
  ∀ b : Nat, (b : Int) < a.blockCount.toInt →
    (a.usedBit b = true ↔ b < P ∨ ∃ he ∈ todo, (a.runAt he.2.offset he.2.size).Covers b)

theorem PackedBelow.prefix_iff {a : Arena} {P : Nat} (h : a.PackedBelow P []) (b : Nat)
    (hb : (b : Int) < a.blockCount.toInt) : a.usedBit b = true ↔ b < P := by
  rw [h b hb]
  simp

end Arena

/-! ## One step of the pass -/

namespace BlockStore

section LiveEntry

variable {s : BlockStore} (hw : s.WellFormed) {h : UInt64} {e : BlockEntry}
  (hmem : (h, e) ∈ s.entries)
include hw hmem

theorem WellFormed.runs_apart {h' : UInt64} {e' : BlockEntry} (hmem' : (h', e') ∈ s.entries)
    (hne : h ≠ h') :
    (s.arena.runAt e.offset e.size).Apart (s.arena.runAt e'.offset e'.size) := by
  have hpw : s.entries.Pairwise fun x y =>
      (s.arena.runAt x.2.offset x.2.size).Apart (s.arena.runAt y.2.offset y.2.size) :=
    List.pairwise_map.1 hw.tracks.apart
  have : Std.Symm fun x y : UInt64 × BlockEntry =>
      (s.arena.runAt x.2.offset x.2.size).Apart (s.arena.runAt y.2.offset y.2.size) :=
    ⟨fun _ _ hab => hab.symm⟩
  have hap := hpw.forall hmem hmem' fun heq => hne (congrArg Prod.fst heq)
  exact hap

/-- Of two distinct live entries, the one at the lower address has its run end at or below the
    other's first block. -/
theorem WellFormed.end_le_of_offset_le {h' : UInt64} {e' : BlockEntry}
    (hmem' : (h', e') ∈ s.entries) (hne : h ≠ h') (hle : e.offset.toInt ≤ e'.offset.toInt) :
    (s.arena.runAt e.offset e.size).start + (s.arena.runAt e.offset e.size).count ≤
      (s.arena.runAt e'.offset e'.size).start := by
  have hstart := hw.start_le_of_offset_le hmem hmem' hle
  have hpos' := (hw.run_inside hmem').1
  -- the other run cannot lie wholly below a run that starts no higher
  rcases hw.runs_apart hmem hmem' hne with hbelow | habove
  · exact hbelow
  · omega

/-- One step of compaction, on the lowest of the entries still to visit, when the table holds a
    packed prefix `[0, P)` and the runs of those entries, all at or above `P`, and every block
    has the entry's alignment: the entry is placed at `P`, every other entry stays, and the
    table holds the prefix grown by the entry's blocks and the runs of the rest. -/
theorem WellFormed.compactOne_packs {P : Nat} {rest : List (UInt64 × BlockEntry)}
    (hrest : ∀ he ∈ rest, he ∈ s.entries ∧ h ≠ he.1 ∧ e.offset.toInt ≤ he.2.offset.toInt)
    (hP : P ≤ (s.arena.runAt e.offset e.size).start) (hal : s.arena.AlignsBlocks e.layout.align)
    (hpack : s.arena.PackedBelow P ((h, e) :: rest)) (c : Compaction) :
    ∃ (c' : Compaction) (s' : BlockStore), (compactOne c (h, e)).run s = .ok c' s' ∧
      s'.WellFormed ∧ (∃ bytes, s'.arena = { s.arena with bytes := bytes }) ∧
      s'.entries.lookup h = some ⟨s.arena.blockOffset (Int64.ofNat P), e.layout, e.size⟩ ∧
      (∀ k, k ≠ h → s'.entries.lookup k = s.entries.lookup k) ∧
      s'.arena.PackedBelow (P + (s.arena.runAt e.offset e.size).count) rest := by
  obtain ⟨t, bytes₁, s', -, -, hm₁, hfit, hmin, hrun, hw', -, -, ⟨bytes, har⟩, hat, hothers,
    hbits⟩ := hw.compactOne_lowers hmem c
  obtain ⟨hpos, hcount, hend⟩ := hw.run_inside hmem
  have habove : ∀ he ∈ rest, (s.arena.runAt e.offset e.size).start +
      (s.arena.runAt e.offset e.size).count ≤ (s.arena.runAt he.2.offset he.2.size).start :=
    fun he hm => hw.end_le_of_offset_le hmem (hrest he hm).1 (hrest he hm).2.1 (hrest he hm).2.2
  -- clearing the entry's run leaves the prefix and the runs of the rest
  have hcleared : ∀ b : Nat, (b : Int) < s.arena.blockCount.toInt →
      (Arena.usedBit { s.arena with bytes := bytes₁ } b = true ↔
        b < P ∨ ∃ he ∈ rest, (s.arena.runAt he.2.offset he.2.size).Covers b) := by
    intro b hb
    rw [hm₁.usedBit_eq b]
    split_ifs with hin
    · simp only [false_iff, not_or, not_exists, not_and]
      refine ⟨by omega, fun he hm hcov => ?_⟩
      have := habove he hm
      unfold Extent.Covers at hcov
      omega
    · rw [hpack b hb]
      simp only [List.mem_cons, exists_eq_or_imp]
      unfold Extent.Covers
      constructor
      · rintro (hlt | hcov | hcov)
        · exact .inl hlt
        · omega
        · exact .inr hcov
      · rintro (hlt | hcov)
        · exact .inl hlt
        · exact .inr (.inr hcov)
  -- so `P` fits the entry, and no lower block does: the first fit is `P`
  have hPfit : Arena.FitsAt { s.arena with bytes := bytes₁ } (s.arena.blocksFor e.layout.size)
      e.layout.align P := by
    refine ⟨show (P : Int) + _ ≤ s.arena.blockCount.toInt by omega,
      hal P (by rw [← Int64.toNat_toInt]; omega), fun b h1 h2 => ?_⟩
    cases hb : Arena.usedBit { s.arena with bytes := bytes₁ } b with
    | false => rfl
    | true =>
      rcases (hcleared b (by omega)).1 hb with hlt | ⟨he, hm, hcov⟩
      · omega
      · have := habove he hm
        unfold Extent.Covers at hcov
        omega
  have htP : t = P := by
    rcases Nat.lt_trichotomy t P with hlt | heq | hgt
    · -- block `t` lies in the prefix, so it is used and cannot start a fit
      have hfree := hfit.2.2 t le_rfl (by omega)
      rw [(hcleared t (by omega)).2 (.inl hlt)] at hfree
      exact Bool.noConfusion hfree
    · exact heq
    · exact absurd hPfit (hmin P hgt)
  subst htP
  refine ⟨_, s', hrun, hw', ⟨bytes, har⟩, hat, hothers, fun b hb => ?_⟩
  rw [har] at hb
  rw [hbits b hb, har]
  split_ifs with hin
  · simp only [true_iff]
    exact .inl (by omega)
  · rw [hcleared b hb]
    constructor
    · rintro (hlt | hcov)
      · exact .inl (by omega)
      · exact .inr hcov
    · rintro (hlt | hcov)
      · exact .inl (by omega)
      · exact .inr hcov

end LiveEntry

/-! ## The whole pass -/

/-- A compaction pass, in address order, over distinct live entries of a well-formed store whose
    table holds a packed prefix `[0, P)` and the runs of those entries, all at or above `P`,
    where every block has each entry's alignment: the pass places each entry at or above `P`,
    in the order of the pass, keeps every other entry, and leaves the table holding the prefix
    grown by all the entries' blocks. -/
theorem WellFormed.foldCompact_packs : ∀ (todo : List (UInt64 × BlockEntry)) (c : Compaction)
    {s : BlockStore} (P : Nat), s.WellFormed → (∀ he ∈ todo, he ∈ s.entries) →
    (todo.map Prod.fst).Nodup → todo.Pairwise (fun x y => x.2.offset.toInt ≤ y.2.offset.toInt) →
    (∀ he ∈ todo, s.arena.AlignsBlocks he.2.layout.align) →
    (∀ he ∈ todo, P ≤ (s.arena.runAt he.2.offset he.2.size).start) →
    s.arena.PackedBelow P todo →
    ∃ (c' : Compaction) (s' : BlockStore), (todo.foldlM compactOne c).run s = .ok c' s' ∧
      s'.WellFormed ∧ (∃ bytes, s'.arena = { s.arena with bytes := bytes }) ∧
      (∀ k, k ∉ todo.map Prod.fst → s'.entries.lookup k = s.entries.lookup k) ∧
      (∀ he ∈ todo, ∃ t : Nat, P ≤ t ∧ (t : Int) < s.arena.blockCount.toInt ∧
        s'.entries.lookup he.1 =
          some ⟨s.arena.blockOffset (Int64.ofNat t), he.2.layout, he.2.size⟩) ∧
      todo.Pairwise (fun x y => ∀ ex ey, s'.entries.lookup x.1 = some ex →
        s'.entries.lookup y.1 = some ey → ex.offset.toInt < ey.offset.toInt) ∧
      s'.arena.PackedBelow
        (P + (todo.map fun he => (s.arena.runAt he.2.offset he.2.size).count).sum) [] := by
  intro todo
  induction todo with
  | nil =>
    intro c s P hw _ _ _ _ _ hpack
    exact ⟨c, s, rfl, hw, ⟨_, rfl⟩, fun _ _ => rfl, by simp, List.Pairwise.nil,
      by simpa using hpack⟩
  | cons he todo ih =>
    intro c s P hw hin hnd hsorted hal hP hpack
    obtain ⟨h, e⟩ := he
    have hmem := hin _ List.mem_cons_self
    rw [List.map_cons, List.nodup_cons] at hnd
    rw [List.pairwise_cons] at hsorted
    have hrest : ∀ he ∈ todo, he ∈ s.entries ∧ h ≠ he.1 ∧ e.offset.toInt ≤ he.2.offset.toInt :=
      fun he hm => ⟨hin he (List.mem_cons_of_mem _ hm),
        fun heq => hnd.1 (List.mem_map.2 ⟨he, hm, heq.symm⟩), hsorted.1 he hm⟩
    obtain ⟨c₁, s₁, hrun₁, hw₁, ⟨bytes₁, har₁⟩, hat₁, hothers₁, hpack₁⟩ :=
      hw.compactOne_packs hmem hrest (hP (h, e) List.mem_cons_self)
        (hal (h, e) List.mem_cons_self) hpack c
    have g := hw.geometry
    obtain ⟨hpos, hcount, hend⟩ := hw.run_inside hmem
    have hPe : P ≤ (s.arena.runAt e.offset e.size).start := hP (h, e) List.mem_cons_self
    have hN₁ : s₁.arena.blockCount = s.arena.blockCount := by rw [har₁]
    set C := (s.arena.runAt e.offset e.size).count with hC
    -- the rest of the pass finds its entries as they were, at or above the grown prefix
    have hin₁ : ∀ he ∈ todo, he ∈ s₁.entries := fun he hm => by
      apply mem_of_lookup
      rw [hothers₁ _ (hrest he hm).2.1.symm]
      exact lookup_of_mem hw.keys_nodup (hrest he hm).1
    have hP₁ : ∀ he ∈ todo, P + C ≤ (s₁.arena.runAt he.2.offset he.2.size).start := by
      intro he hm
      rw [har₁, Arena.runAt_withBytes]
      have := hw.end_le_of_offset_le hmem (hrest he hm).1 (hrest he hm).2.1 (hrest he hm).2.2
      omega
    have hal₁ : ∀ he ∈ todo, s₁.arena.AlignsBlocks he.2.layout.align := by
      intro he hm
      rw [har₁]
      exact hal he (List.mem_cons_of_mem _ hm)
    obtain ⟨c', s', hrun, hw', ⟨bytes', har'⟩, hkeep, hplaced, hordered, hpack'⟩ :=
      ih c₁ (P + C) hw₁ hin₁ hnd.2 hsorted.2 hal₁ hP₁ hpack₁
    -- where the rest of the pass places its entries, read against the first store
    have hplaced' : ∀ he ∈ todo, ∃ t : Nat, P + C ≤ t ∧ (t : Int) < s.arena.blockCount.toInt ∧
        s'.entries.lookup he.1 =
          some ⟨s.arena.blockOffset (Int64.ofNat t), he.2.layout, he.2.size⟩ := by
      intro he hm
      obtain ⟨t, ht, htN, hl⟩ := hplaced he hm
      rw [hN₁] at htN
      rw [har₁, Arena.blockOffset_withBytes] at hl
      exact ⟨t, ht, htN, hl⟩
    have hat' : s'.entries.lookup h =
        some ⟨s.arena.blockOffset (Int64.ofNat P), e.layout, e.size⟩ := by
      rw [hkeep h hnd.1, hat₁]
    refine ⟨c', s', by rw [List.foldlM_cons, Act.run_bind_ok hrun₁]; exact hrun, hw',
      ⟨bytes', by rw [har', har₁]⟩, fun k hk => ?_, fun he hm => ?_, ?_, ?_⟩
    · rw [List.map_cons, List.mem_cons, not_or] at hk
      rw [hkeep k hk.2, hothers₁ k hk.1]
    · rcases List.mem_cons.1 hm with rfl | hm
      · exact ⟨P, le_rfl, by omega, hat'⟩
      · obtain ⟨t, ht, htN, hl⟩ := hplaced' he hm
        exact ⟨t, by omega, htN, hl⟩
    · -- the entry placed at `P` lies below every entry the rest of the pass places
      refine List.Pairwise.cons (fun he hm ex ey hx hy => ?_) hordered
      obtain ⟨t, ht, htN, hl⟩ := hplaced' he hm
      rw [hat'] at hx
      rw [hl] at hy
      cases hx
      cases hy
      have hPN : (P : Int) ≤ s.arena.blockCount.toInt := by omega
      exact lt_of_not_ge ((g.blockOffset_le_iff htN.le hPN).not.2 (by omega))
    · have hsum : P + C + (todo.map fun he => (s₁.arena.runAt he.2.offset he.2.size).count).sum =
          P + (((h, e) :: todo).map fun he => (s.arena.runAt he.2.offset he.2.size).count).sum := by
        simp only [har₁, Arena.runAt_withBytes, List.map_cons, List.sum_cons]
        omega
      rw [← hsum]
      exact hpack'

/-- In a list sorted by a key, a relation that holds of every pair in list order holds of every
    two members whose keys are strictly ordered. -/
theorem rel_of_sorted {α : Type} {f : α → Int} {R : α → α → Prop} :
    ∀ {l : List α}, l.Pairwise (fun x y => f x ≤ f y) → l.Pairwise R →
      ∀ {x y : α}, x ∈ l → y ∈ l → f x < f y → R x y
  | [], _, _, _, _, hx, _, _ => absurd hx List.not_mem_nil
  | a :: l, hs, hR, x, y, hx, hy, hlt => by
    rw [List.pairwise_cons] at hs hR
    rcases List.mem_cons.1 hx with rfl | hxl
    · rcases List.mem_cons.1 hy with rfl | hyl
      · exact absurd hlt (lt_irrefl _)
      · exact hR.1 y hyl
    · rcases List.mem_cons.1 hy with rfl | hyl
      · -- the head's key is no greater than any later one
        exact absurd (hs.1 x hxl) (not_le.2 hlt)
      · exact rel_of_sorted hs.2 hR.2 hxl hyl hlt

theorem WellFormed.packedBelow_byAddress {s : BlockStore} (hw : s.WellFormed) :
    s.arena.PackedBelow 0 (byAddress s) := by
  have hperm := byAddress_perm s
  intro b hb
  rw [hw.tracks.bits b hb]
  simp only [Nat.not_lt_zero, false_or, Occupied, liveRuns, List.mem_map]
  constructor
  · rintro ⟨_, ⟨he, hm, rfl⟩, hcov⟩
    exact ⟨he, hperm.mem_iff.2 hm, hcov⟩
  · rintro ⟨he, hm, hcov⟩
    exact ⟨_, ⟨he, hperm.mem_iff.1 hm, rfl⟩, hcov⟩

end BlockStore

namespace BlockStore

/-- What a compaction of `s` that leaves `s'` achieves when it packs: `s'` is well formed, its
    live runs occupy exactly the blocks `[0, usedBlocks)`, every two live entries of `s` keep the
    order of their addresses, and the arena's walk and detailed statistics report at most one
    free run, which starts at `usedBlocks` and ends the arena. -/
structure PacksInto (s s' : BlockStore) : Prop where
  wellFormed : s'.WellFormed
  fills : ∀ b : Nat, (b : Int) < s'.arena.blockCount.toInt →
    (Occupied s'.liveRuns b ↔ (b : Int) < s'.arena.usedBlocks.toInt)
  ordered : ∀ h₁ e₁ h₂ e₂, (h₁, e₁) ∈ s.entries → (h₂, e₂) ∈ s.entries →
    e₁.offset.toInt < e₂.offset.toInt →
    ∃ e₁' e₂', s'.entries.lookup h₁ = some e₁' ∧ s'.entries.lookup h₂ = some e₂' ∧
      e₁'.offset.toInt < e₂'.offset.toInt
  report : ∃ rs d, s'.arena.runs = .ok rs ∧ s'.arena.detailedStats = .ok d ∧
    d.freeRunCount.toInt ≤ 1 ∧
    ∀ r ∈ rs, r.free = true → (r.first : Int) = s'.arena.usedBlocks.toInt ∧
      (r.first + r.count : Int) = s'.arena.blockCount.toInt

end BlockStore

open BlockStore in
/-- Compaction packs an arena in which every block has the alignment of every live entry. On a
    well-formed store it answers and leaves a well-formed store whose live runs occupy exactly
    the blocks `[0, usedBlocks)`; every two live entries keep the order of their old addresses;
    and the arena's walk and detailed statistics report at most one free run, which starts at
    `usedBlocks` and ends the arena. -/
theorem compaction_packs_aligned_arena (s : BlockStore) (hw : s.WellFormed)
    (hal : ∀ he ∈ s.entries, s.arena.AlignsBlocks he.2.layout.align) :
    ∃ (c : Compaction) (s' : BlockStore), compact.run s = .ok c s' ∧ s.PacksInto s' := by
  obtain ⟨hall, hnd⟩ := hw.byAddress_live
  have hperm := byAddress_perm s
  obtain ⟨c, s', hrun, hw', ⟨bytes, har⟩, -, hplaced, hordered, hpack'⟩ :=
    hw.foldCompact_packs (byAddress s) {} 0 hall hnd (byAddress_sorted s)
      (fun he hm => hal he (hall he hm)) (fun _ _ => Nat.zero_le _) hw.packedBelow_byAddress
  have hw'' := hw'.withEpoch (s'.epoch + 1)
  set U := ((byAddress s).map fun he => (s.arena.runAt he.2.offset he.2.size).count).sum with hU
  have hused : s'.arena.usedBlocks.toInt = U := by
    rw [har, hw.tracks.usedBlocks_eq, hU, liveRuns, List.map_map]
    exact congrArg Nat.cast (hperm.map _).sum_eq.symm
  have hbits := hpack'.prefix_iff
  rw [Nat.zero_add] at hbits
  have hUN : (U : Int) ≤ s'.arena.blockCount.toInt := by
    rw [← hused, hw'.tracks.usedBlocks_eq]
    exact hw'.tracks.sum_le
  obtain ⟨rs, d, hruns, hstats, hcount, hfree⟩ := hw'.geometry.report_of_prefix hUN hbits
  refine ⟨c, _, compact_run_of_fold hrun, hw'', fun b hb => ?_, ?_,
    ⟨rs, d, hruns, hstats, hcount, fun r hr hr' => ?_⟩⟩
  · rw [← hw''.tracks.bits b hb, hused]
    exact (hbits b hb).trans Int.ofNat_lt.symm
  · -- the pass places the entries in address order, each above the ones before it
    intro h₁ e₁ h₂ e₂ hm₁ hm₂ hlt
    have hm₁' := hperm.mem_iff.2 hm₁
    have hm₂' := hperm.mem_iff.2 hm₂
    obtain ⟨t₁, -, -, hl₁⟩ := hplaced _ hm₁'
    obtain ⟨t₂, -, -, hl₂⟩ := hplaced _ hm₂'
    refine ⟨_, _, hl₁, hl₂, ?_⟩
    exact rel_of_sorted (byAddress_sorted s) hordered hm₁' hm₂' hlt _ _ hl₁ hl₂
  · obtain ⟨hfirst, hend⟩ := hfree r hr hr'
    exact ⟨by rw [hfirst, hused], hend⟩

open BlockStore in
set_option maxRecDepth 20000 in
/-- A store of eight blocks of eight bytes, after two requests for one block and the release of
    the first: the second entry sits alone at block `1`, and compaction packs it. -/
theorem compaction_packs_after_release :
    ∃ s₀ : BlockStore, BlockStore.create (.pinned false false) 8 8 0 = .ok s₀ ∧
      (StoreCall.runAll [.allocate ⟨8, 8⟩, .allocate ⟨8, 8⟩, .deallocate 1 ⟨8, 8⟩] s₀).WellFormed ∧
      (∀ he ∈ (StoreCall.runAll [.allocate ⟨8, 8⟩, .allocate ⟨8, 8⟩, .deallocate 1 ⟨8, 8⟩]
          s₀).entries,
        (StoreCall.runAll [.allocate ⟨8, 8⟩, .allocate ⟨8, 8⟩, .deallocate 1 ⟨8, 8⟩]
          s₀).arena.AlignsBlocks he.2.layout.align) ∧
      ∃ (c : Compaction) (s' : BlockStore),
        compact.run (StoreCall.runAll [.allocate ⟨8, 8⟩, .allocate ⟨8, 8⟩, .deallocate 1 ⟨8, 8⟩]
          s₀) = .ok c s' ∧
        (StoreCall.runAll [.allocate ⟨8, 8⟩, .allocate ⟨8, 8⟩, .deallocate 1 ⟨8, 8⟩]
          s₀).PacksInto s' := by
  let s₀ : BlockStore :=
    { arena := { blockSize := 8, blockCount := 8, managementBlocks := 1, bufferSize := 72,
                 bufferAlign := 8, bytes := Buffer.zeros 72, tableLength := 8 },
      flags := 0 }
  have hcreate : BlockStore.create (.pinned false false) 8 8 0 = .ok s₀ := rfl
  obtain ⟨hw₀, hnext₀⟩ := WellFormed.of_create hcreate (by decide) (Parent.pinned_servesAtMost _ _)
  obtain ⟨hw, -, -⟩ := hw₀.runAll [.allocate ⟨8, 8⟩, .allocate ⟨8, 8⟩, .deallocate 1 ⟨8, 8⟩]
    (by rw [hnext₀]; decide) ⟨⟨rfl, by simp only [Arena.Sized]; decide⟩,
      ⟨rfl, by cbv; exact ⟨.mk _, .mk _⟩⟩,
      ⟨⟨⟨8, ⟨8, 8⟩, 8⟩, by cbv⟩, rfl, by cbv; exact ⟨.mk _, .mk _⟩⟩, trivial⟩
  have hent : (StoreCall.runAll [.allocate ⟨8, 8⟩, .allocate ⟨8, 8⟩, .deallocate 1 ⟨8, 8⟩]
      s₀).entries = [(2, ⟨16, ⟨8, 8⟩, 8⟩)] := by
    cbv
  have haligned : (StoreCall.runAll [.allocate ⟨8, 8⟩, .allocate ⟨8, 8⟩, .deallocate 1 ⟨8, 8⟩]
      s₀).arena.AlignsBlocks 8 := by
    cbv
    decide
  have hal : ∀ he ∈ (StoreCall.runAll [.allocate ⟨8, 8⟩, .allocate ⟨8, 8⟩, .deallocate 1 ⟨8, 8⟩]
      s₀).entries, (StoreCall.runAll [.allocate ⟨8, 8⟩, .allocate ⟨8, 8⟩, .deallocate 1 ⟨8, 8⟩]
        s₀).arena.AlignsBlocks he.2.layout.align := by
    intro he hm
    rw [hent, List.mem_singleton] at hm
    subst hm
    exact haligned
  exact ⟨s₀, hcreate, hw, hal, compaction_packs_aligned_arena _ hw hal⟩

end BlockArena
