import BlockArena.Proofs.Compaction

/-! # A compaction settles every entry

An entry is settled in an arena when first fit could place it no lower: every block below its
run at which a run of its blocks would end inside the arena, at an address with its alignment,
meets a used block below the entry (`BlockEntry.Settled`). A store is compacted when all its live
entries are.

* On a compacted well-formed store each step of a compaction finds the entry's own run first,
  clears it and marks it again, which gives the table back bit for bit: the whole compaction
  moves nothing and changes nothing but the epoch (`BlockStore.WellFormed.compact_of_compacted`).
* One compaction leaves a compacted store. The pass visits the entries in address order; the
  entry a step places is settled by the choice of the first fit, and an entry placed earlier
  stays settled, since what a later step frees lies above it and what it takes only fills blocks
  (`BlockStore.WellFormed.foldCompact_settles`).

Together: a second compaction reports nothing moved and leaves the store as the first left it,
one epoch later (`compaction_is_idempotent`).
-/

set_option autoImplicit false

namespace BlockArena

/-- An entry is settled in an arena when first fit could place it no lower: every block below
    its run at which a run of its blocks would end inside the arena, at an address with its
    alignment, meets a used block below the entry. -/
def BlockEntry.Settled (a : Arena) (e : BlockEntry) : Prop :=
  ∀ v : Nat, v < (a.runAt e.offset e.size).start →
    (v : Int) + (a.blocksFor e.layout.size).toInt ≤ a.blockCount.toInt →
    a.blockAligned (Int64.ofNat v) e.layout.align = true →
    ∃ b : Nat, v ≤ b ∧ (b : Int) < v + (a.blocksFor e.layout.size).toInt ∧
      b < (a.runAt e.offset e.size).start ∧ a.usedBit b = true

namespace BlockEntry

variable {a : Arena} {e : BlockEntry}

/-- Settling reads only the used blocks below the entry: other bytes that keep each of them used
    keep the entry settled. -/
theorem Settled.of_used_below (hs : e.Settled a) {bytes : ByteArray}
    (hbits : ∀ b : Nat, b < (a.runAt e.offset e.size).start → a.usedBit b = true →
      Arena.usedBit { a with bytes := bytes } b = true) :
    e.Settled { a with bytes := bytes } := by
  intro v hv hend hal
  obtain ⟨b, hvb, hbv, hb, hused⟩ := hs v hv hend hal
  exact ⟨b, hvb, hbv, hb, hbits b hb hused⟩

theorem Settled.not_fits (hs : e.Settled a) {bytes₁ : ByteArray}
    (hm₁ : a.Marked bytes₁ (a.runAt e.offset e.size).start (a.blocksFor e.layout.size).toInt false)
    {v : Nat} (hv : v < (a.runAt e.offset e.size).start) :
    ¬Arena.FitsAt { a with bytes := bytes₁ } (a.blocksFor e.layout.size) e.layout.align v := by
  rintro ⟨hend, hal, hfree⟩
  obtain ⟨b, hvb, hbv, hb, hused⟩ := hs v hv hend hal
  -- the used block lies below the cleared run, so clearing kept it
  have hb₁ := hfree b hvb hbv
  rw [hm₁.usedBit_eq b, if_neg (by omega)] at hb₁
  rw [hused] at hb₁
  exact Bool.noConfusion hb₁

end BlockEntry

namespace BlockStore

/-- Every live entry of the store is settled in its arena. -/
def Compacted (s : BlockStore) : Prop :=
  ∀ he ∈ s.entries, he.2.Settled s.arena

theorem byAddress_sorted (s : BlockStore) :
    (byAddress s).Pairwise fun x y => x.2.offset.toInt ≤ y.2.offset.toInt := by
  have hsorted := @List.pairwise_mergeSort _ (fun x y : UInt64 × BlockEntry =>
      decide (x.2.offset ≤ y.2.offset))
    (fun _ _ _ hab hbc => decide_eq_true (Int64.le_trans (of_decide_eq_true hab)
      (of_decide_eq_true hbc)))
    (fun x y => by
      rcases Int64.le_total x.2.offset y.2.offset with hxy | hyx
      · simp [hxy]
      · simp [hyx])
    s.entries
  exact hsorted.imp fun hab => Int64.le_iff_toInt_le.1 (of_decide_eq_true hab)

section LiveEntry

variable {s : BlockStore} (hw : s.WellFormed) {h : UInt64} {e : BlockEntry}
  (hmem : (h, e) ∈ s.entries)
include hw hmem

theorem WellFormed.start_le_of_offset_le {h' : UInt64} {e' : BlockEntry}
    (hmem' : (h', e') ∈ s.entries) (hle : e.offset.toInt ≤ e'.offset.toInt) :
    (s.arena.runAt e.offset e.size).start ≤ (s.arena.runAt e'.offset e'.size).start := by
  have g := hw.geometry
  have hoff := hw.blockOffset_start hmem
  have hoff' := hw.blockOffset_start hmem'
  have hend := (hw.run_inside hmem).2.2
  have hend' := (hw.run_inside hmem').2.2
  have hpos : 0 < (s.arena.blocksFor e.layout.size).toInt := (hw.placed _ hmem).blocks_pos
  have hpos' : 0 < (s.arena.blocksFor e'.layout.size).toInt := (hw.placed _ hmem').blocks_pos
  rw [← hoff, ← hoff'] at hle
  exact (g.blockOffset_le_iff (by omega) (by omega)).1 hle

/-- One step of compaction on a live entry of a well-formed store leaves a well-formed store in
    which every other entry stays, the arena changes only in its buffer, every used block below
    the entry's run stays used, and the entry is recorded settled, no higher than it was. -/
theorem WellFormed.compactOne_settles (c : Compaction) :
    ∃ (c' : Compaction) (s' : BlockStore), (compactOne c (h, e)).run s = .ok c' s' ∧
      s'.WellFormed ∧ (∃ bytes, s'.arena = { s.arena with bytes := bytes }) ∧
      (∀ k, k ≠ h → s'.entries.lookup k = s.entries.lookup k) ∧
      (∀ b : Nat, b < (s.arena.runAt e.offset e.size).start → s.arena.usedBit b = true →
        s'.arena.usedBit b = true) ∧
      ∃ e', s'.entries.lookup h = some e' ∧ e'.Settled s'.arena ∧
        (s'.arena.runAt e'.offset e'.size).start ≤ (s.arena.runAt e.offset e.size).start := by
  have g := hw.geometry
  have hp := hw.placed _ hmem
  obtain ⟨-, hcount, hend⟩ := hw.run_inside hmem
  obtain ⟨t, bytes₁, s', hle, -, hm₁, hfit, hmin, hrun, hw', -, -, ⟨bytes, har⟩, hat, hothers,
    hbits⟩ := hw.compactOne_lowers hmem c
  have hpos : 0 < (s.arena.blocksFor e.layout.size).toInt := hp.blocks_pos
  have htend := hfit.1
  have hsize := hw.size_eq_blocks hmem
  have hstart : (s'.arena.runAt (s.arena.blockOffset (Int64.ofNat t)) e.size).start = t := by
    rw [har]
    show (s.arena.runAt (s.arena.blockOffset (Int64.ofNat t)) e.size).start = t
    rw [hsize, g.runAt_blockOffset (by omega) hpos.le (by omega)]
  have hkeep : ∀ b : Nat, b < (s.arena.runAt e.offset e.size).start → s.arena.usedBit b = true →
      s'.arena.usedBit b = true := by
    intro b hb hused
    have hcleared : Arena.usedBit { s.arena with bytes := bytes₁ } b = true := by
      rw [hm₁.usedBit_eq b, if_neg (by omega)]
      exact hused
    rw [hbits b (by omega)]
    split
    · rfl
    · exact hcleared
  refine ⟨_, s', hrun, hw', ⟨bytes, har⟩, hothers, hkeep, _, hat, ?_, by rw [hstart]; exact hle⟩
  -- settled: a lower start that fits but for its used blocks meets one below `t`
  intro v hv hvend hval
  rw [hstart] at hv
  have hv' : ¬Arena.FitsAt { s.arena with bytes := bytes₁ } (s.arena.blocksFor e.layout.size)
      e.layout.align v := hmin v hv
  have hused : ∃ b : Nat, v ≤ b ∧ (b : Int) < v + (s.arena.blocksFor e.layout.size).toInt ∧
      Arena.usedBit { s.arena with bytes := bytes₁ } b = true := by
    by_contra hnone
    refine hv' ⟨by rw [har] at hvend; exact hvend, by rw [har] at hval; exact hval, fun b h1 h2 => ?_⟩
    cases hb : Arena.usedBit { s.arena with bytes := bytes₁ } b with
    | false => rfl
    | true => exact absurd ⟨b, h1, h2, hb⟩ hnone
  obtain ⟨b, hvb, hbv, hb₁⟩ := hused
  -- the first fit's own blocks are free in the cleared arena, so `b` lies below them
  have hbt : b < t := by
    by_contra hge
    have hfree := hfit.2.2 b (by omega) (by omega)
    rw [hb₁] at hfree
    exact Bool.noConfusion hfree
  have hb' : s'.arena.usedBit b = true := by
    rw [hbits b (by omega), if_neg (by omega)]
    exact hb₁
  exact ⟨b, hvb, by rw [har]; exact hbv, by rw [hstart]; exact hbt, hb'⟩

/-- A step of compaction on a settled live entry of a well-formed store finds the entry's own
    run, and gives back the store as it was. -/
theorem WellFormed.compactOne_of_settled (hs : e.Settled s.arena) (c : Compaction) :
    (compactOne c (h, e)).run s = .ok c s := by
  obtain ⟨-, hcount, hend⟩ := hw.run_inside hmem
  obtain ⟨t, bytes₁, bytes₂, hle, -, hm₁, hfit, -, hm₂, hrun⟩ := hw.relocate_lowers hmem
  have ht : t = (s.arena.runAt e.offset e.size).start := by
    by_contra hne
    exact hs.not_fits hm₁ (by omega) hfit
  rw [ht] at hm₂ hrun
  have hbytes : bytes₂ = s.arena.bytes := by
    refine Arena.Marked.restores hm₁ hm₂ fun b h1 h2 => ?_
    exact hw.tracks.usedBit_of_covers (mem_liveRuns hmem) ⟨by omega, by omega⟩
  rw [hbytes, hw.blockOffset_start hmem] at hrun
  exact compactOne_run_of_stays hrun

end LiveEntry

/-- A compaction pass over live entries of a well-formed store in which every entry is settled
    changes nothing. -/
theorem WellFormed.foldCompact_of_compacted {s : BlockStore} (hw : s.WellFormed)
    (hc : s.Compacted) (todo : List (UInt64 × BlockEntry)) (c : Compaction)
    (hin : ∀ he ∈ todo, he ∈ s.entries) : (todo.foldlM compactOne c).run s = .ok c s := by
  induction todo with
  | nil => rfl
  | cons he todo ih =>
    obtain ⟨h, e⟩ := he
    have hmem := hin _ List.mem_cons_self
    rw [List.foldlM_cons, Act.run_bind_ok (hw.compactOne_of_settled hmem (hc (h, e) hmem) c)]
    exact ih fun he' hm => hin he' (List.mem_cons_of_mem _ hm)

/-- Compacting a compacted well-formed store moves nothing and only counts the epoch. -/
theorem WellFormed.compact_of_compacted {s : BlockStore} (hw : s.WellFormed) (hc : s.Compacted) :
    compact.run s = .ok { bytesMoved := 0, allocationsMoved := 0 } { s with epoch := s.epoch + 1 } :=
  compact_run_of_fold (hw.foldCompact_of_compacted hc _ _ hw.byAddress_live.1)

/-- A compaction pass, in address order, over distinct live entries of a well-formed store,
    where every entry the pass does not visit is settled and starts no higher than the entries it
    visits, leaves a well-formed compacted store. The entry a step places is settled by the
    first fit; an entry settled earlier stays settled, since the step frees only blocks above it. -/
theorem WellFormed.foldCompact_settles : ∀ (todo : List (UInt64 × BlockEntry)) (c : Compaction)
    {s : BlockStore}, s.WellFormed → (∀ he ∈ todo, he ∈ s.entries) → (todo.map Prod.fst).Nodup →
    todo.Pairwise (fun x y => x.2.offset.toInt ≤ y.2.offset.toInt) →
    (∀ he ∈ s.entries, he.1 ∉ todo.map Prod.fst → he.2.Settled s.arena ∧
      ∀ he' ∈ todo, (s.arena.runAt he.2.offset he.2.size).start ≤
        (s.arena.runAt he'.2.offset he'.2.size).start) →
    ∃ (c' : Compaction) (s' : BlockStore), (todo.foldlM compactOne c).run s = .ok c' s' ∧
      s'.WellFormed ∧ s'.Compacted := by
  intro todo
  induction todo with
  | nil =>
    intro c s hw _ _ _ hdone
    exact ⟨c, s, rfl, hw, fun he hm => (hdone he hm List.not_mem_nil).1⟩
  | cons he todo ih =>
    intro c s hw hin hnd hsorted hdone
    obtain ⟨h, e⟩ := he
    have hmem := hin _ List.mem_cons_self
    obtain ⟨c₁, s₁, hrun₁, hw₁, ⟨bytes, har⟩, hothers, hkeep, e₁, hat, hset, hlower⟩ :=
      hw.compactOne_settles hmem c
    rw [List.map_cons, List.nodup_cons] at hnd
    rw [List.pairwise_cons] at hsorted
    -- the rest of the pass finds its entries as they were, starting above the entry placed
    have hin₁ : ∀ he ∈ todo, he ∈ s₁.entries := fun he hm => by
      have hne : he.1 ≠ h := fun heq => hnd.1 (List.mem_map.2 ⟨he, hm, heq⟩)
      apply mem_of_lookup
      rw [hothers _ hne]
      exact lookup_of_mem hw.keys_nodup (hin he (List.mem_cons_of_mem _ hm))
    have habove : ∀ he' ∈ todo, (s.arena.runAt e.offset e.size).start ≤
        (s.arena.runAt he'.2.offset he'.2.size).start := fun he' hm' =>
      hw.start_le_of_offset_le hmem (hin he' (List.mem_cons_of_mem _ hm')) (hsorted.1 he' hm')
    -- every entry the rest of the pass does not visit is settled, and starts below it
    have hdone₁ : ∀ he ∈ s₁.entries, he.1 ∉ todo.map Prod.fst → he.2.Settled s₁.arena ∧
        ∀ he' ∈ todo, (s₁.arena.runAt he.2.offset he.2.size).start ≤
          (s₁.arena.runAt he'.2.offset he'.2.size).start := by
      intro he hm hnot
      have hl := lookup_of_mem hw₁.keys_nodup (show (he.1, he.2) ∈ s₁.entries from hm)
      rw [har]
      rw [har] at hset hlower hkeep
      by_cases hk : he.1 = h
      · -- the entry just placed
        rw [hk, hat] at hl
        rw [← Option.some.inj hl]
        exact ⟨hset, fun he' hm' => le_trans hlower (habove he' hm')⟩
      · -- an entry settled before: the step freed only blocks above it
        rw [hothers _ hk] at hl
        have hnot₀ : he.1 ∉ ((h, e) :: todo).map Prod.fst := by
          rw [List.map_cons, List.mem_cons, not_or]
          exact ⟨hk, hnot⟩
        obtain ⟨hs₀, hbelow⟩ := hdone he (mem_of_lookup hl) hnot₀
        have hbits : ∀ b : Nat, b < (s.arena.runAt he.2.offset he.2.size).start →
            s.arena.usedBit b = true → Arena.usedBit { s.arena with bytes := bytes } b = true :=
          fun b hb hused => hkeep b (lt_of_lt_of_le hb (hbelow (h, e) List.mem_cons_self)) hused
        exact ⟨hs₀.of_used_below hbits, fun he' hm' => hbelow he' (List.mem_cons_of_mem _ hm')⟩
    obtain ⟨c', s', hrun, hw', hcomp⟩ := ih c₁ hw₁ hin₁ hnd.2 hsorted.2 hdone₁
    have hrun' : (((h, e) :: todo).foldlM compactOne c).run s = .ok c' s' := by
      rw [List.foldlM_cons, Act.run_bind_ok hrun₁]
      exact hrun
    exact ⟨c', s', hrun', hw', hcomp⟩

end BlockStore

open BlockStore in
/-- Compaction is idempotent. On a well-formed store a compaction answers and leaves a
    well-formed store in which every live entry is settled, as low as first fit can place it;
    compacting that store again reports no bytes and no allocations moved and changes nothing
    but the epoch, which goes up by one: every handle, entry, address, bit of the table and byte
    stays. -/
theorem compaction_is_idempotent (s : BlockStore) (hw : s.WellFormed) :
    ∃ (c : Compaction) (s' : BlockStore), compact.run s = .ok c s' ∧ s'.WellFormed ∧
      s'.Compacted ∧
      compact.run s' =
        .ok { bytesMoved := 0, allocationsMoved := 0 } { s' with epoch := s'.epoch + 1 } := by
  obtain ⟨hall, hnd⟩ := hw.byAddress_live
  have hperm : (byAddress s).Perm s.entries :=
    List.mergeSort_perm s.entries fun a b => decide (a.2.offset ≤ b.2.offset)
  -- the pass visits every live entry, so none is settled beforehand by assumption
  obtain ⟨c, s', hr, hw', hcomp⟩ := hw.foldCompact_settles (byAddress s) {} hall hnd
    (byAddress_sorted s) fun he hm hnot =>
      absurd (List.mem_map.2 ⟨he, hperm.mem_iff.2 hm, rfl⟩) hnot
  have hw'' := hw'.withEpoch (s'.epoch + 1)
  exact ⟨c, _, compact_run_of_fold hr, hw'', hcomp, hw''.compact_of_compacted hcomp⟩

open BlockStore in
/-- A store of eight blocks of eight bytes with one allocation of 16 bytes compacts to a store
    that compacts to itself. -/
theorem recompaction_after_one_allocation :
    ∃ s₀ : BlockStore, BlockStore.create (.pinned false false) 8 8 0 = .ok s₀ ∧
      ∃ (c : Compaction) (s' : BlockStore),
        compact.run (StoreCall.runAll [.allocate ⟨16, 8⟩] s₀) = .ok c s' ∧
        compact.run s' =
          .ok { bytesMoved := 0, allocationsMoved := 0 } { s' with epoch := s'.epoch + 1 } := by
  let s₀ : BlockStore :=
    { arena := { blockSize := 8, blockCount := 8, managementBlocks := 1, bufferSize := 72,
                 bufferAlign := 8, bytes := Buffer.zeros 72, tableLength := 8 },
      flags := 0 }
  have hcreate : BlockStore.create (.pinned false false) 8 8 0 = .ok s₀ := rfl
  obtain ⟨hw₀, hnext₀⟩ := BlockStore.WellFormed.of_create hcreate
    (by decide) (Parent.pinned_servesAtMost _ _)
  obtain ⟨hw, -, -⟩ := hw₀.runAll [.allocate ⟨16, 8⟩] (by rw [hnext₀]; decide)
    ⟨⟨rfl, by simp only [Arena.Sized]; decide⟩, trivial⟩
  obtain ⟨c, s', hrun, -, -, hagain⟩ := compaction_is_idempotent _ hw
  exact ⟨s₀, hcreate, c, s', hrun, hagain⟩

end BlockArena
