import BlockArena.Proofs.Occupancy

/-! # Where an allocation is placed

An arena serves a layout from the lowest block that starts a run of free blocks, as many as the
layout needs, ending inside the arena, at an address with the layout's alignment
(`Arena.FitsAt`). This module proves that this is all there is to it: on an arena that tracks
its live runs, an allocation of a layout that passes the check and rounds up to whole blocks
without overflow

* is served exactly when it asks for fewer blocks than the arena has and some block fits, and
  then from the lowest fitting block: it marks exactly that run used, counts one allocation and
  the run's blocks, and answers the address of the run's first block, which the arena owns, with
  the run's bytes;
* is refused otherwise, with the arena unchanged (`alloc_is_first_fit`).

The number of blocks a size needs is one for an empty layout and the size divided by the block
size, rounded up, for any other.
-/

set_option autoImplicit false

namespace BlockArena

namespace Arena

variable {a : Arena} (g : a.Geometry)
include g

/-- The blocks a size needs: one for no bytes, otherwise the size over the block size rounded
    up. -/
theorem blocksFor_eq_ceil {size : Int64} (h0 : 0 ≤ size.toInt)
    (h : size.toInt + a.blockSize.toInt - 1 ≤ Word.maxInt.toInt) :
    (a.blocksFor size).toInt =
      if size = 0 then 1 else (size.toInt + a.blockSize.toInt - 1) / a.blockSize.toInt := by
  have hbs := g.blockSize_pos
  rw [blocksFor_toInt hbs h0 h]
  split
  · rename_i hz
    subst hz
    have hq : (Int64.toInt 0 + a.blockSize.toInt - 1) / a.blockSize.toInt = 0 :=
      Int.ediv_eq_zero_of_lt (by simp only [Int64.toInt_zero]; omega)
        (by simp only [Int64.toInt_zero]; omega)
    rw [hq]
    rfl
  · rename_i hz
    have hpos : 0 < size.toInt := by
      rcases Int.lt_or_eq_of_le h0 with hlt | heq
      · exact hlt
      · exact absurd (Int64.toInt_inj.1 (by rw [← heq]; rfl)) hz
    have hone : 1 ≤ (size.toInt + a.blockSize.toInt - 1) / a.blockSize.toInt :=
      (Int.le_ediv_iff_mul_le hbs).2 (by omega)
    omega

/-- A layout that passes the check, asking for fewer blocks than the arena has, is refused only
    when no block starts a free run of them at an aligned address. -/
theorem alloc_refused_no_fit {l : Layout} (hcheck : l.check = .ok ())
    (hpos : 0 < (a.blocksFor l.size).toInt) (hlt : (a.blocksFor l.size).toInt < a.blockCount.toInt)
    {f : Fault} {a' : Arena} (hrun : (alloc l).run a = .error f a') (t : Nat) :
    ¬a.FitsAt (a.blocksFor l.size) l.align t := by
  intro hfit
  obtain ⟨r, hr, hfirst⟩ := firstFit_spec g l.align hpos hlt.le
  -- the search finds a start, since one fits
  cases r with
  | none => exact hfirst t (Nat.zero_le t) hfit
  | some u =>
    obtain ⟨w, huw, -, hfitw, -⟩ := hfirst
    obtain ⟨bytes, hmark, -⟩ := markRun_spec u (a.blocksFor l.size) true a (by omega)
      (by have := hfitw.1; have := g.table_covers; omega) g.table_le_size g.table_lt
    have hbig : ¬a.blockCount ≤ a.blocksFor l.size := fun h => by
      have := Int64.le_iff_toInt_le.1 h
      omega
    rw [alloc_run_of_fit hcheck hbig hr hmark] at hrun
    cases hrun

end Arena

/-- Allocation is exactly first fit. On an arena that tracks its live runs, a layout that passes
    the check and rounds up to whole blocks without overflow needs `n` blocks: one for no bytes,
    the size over the block size rounded up otherwise. Either `n` is less than the arena's blocks
    and some block fits, and then the lowest block `t` that fits is taken: its run is marked used
    and no other bit changes, one allocation and `n` blocks are counted, and the answer is the
    address of block `t`, past the table's blocks, which the arena owns, with `n` blocks' bytes;
    or nothing fits, and the request is refused with the arena unchanged. A block fits when its
    `n` blocks are free, end inside the arena, and start at an address with the layout's
    alignment where the arena is placed. -/
theorem alloc_is_first_fit {a : Arena} {live : List Extent} (ht : Tracks a live) {l : Layout}
    (hcheck : l.check = .ok ()) (hl : a.Sized l) :
    (a.blocksFor l.size).toInt =
      (if l.size = 0 then 1 else (l.size.toInt + a.blockSize.toInt - 1) / a.blockSize.toInt) ∧
    (∀ t : Nat, (t : Int) ≤ a.blockCount.toInt →
      (a.blockOffset (Int64.ofNat t)).toInt = (a.managementBlocks.toInt + t) * a.blockSize.toInt ∧
      a.blockAligned (Int64.ofNat t) l.align =
        Addr.alignedAt ((a.managementBlocks.toInt + t) * a.blockSize.toInt) l.align) ∧
    ((∃ (t : Nat) (bytes : ByteArray),
        (a.blocksFor l.size).toInt < a.blockCount.toInt ∧
        a.FitsAt (a.blocksFor l.size) l.align t ∧
        (∀ v, v < t → ¬a.FitsAt (a.blocksFor l.size) l.align v) ∧
        a.Marked bytes t (a.blocksFor l.size).toInt true ∧
        (Arena.alloc l).run a =
          .ok (a.blockOffset (Int64.ofNat t), a.blocksFor l.size * a.blockSize)
            { a with bytes := bytes, allocationCount := a.allocationCount + 1,
                     usedBlocks := a.usedBlocks + a.blocksFor l.size } ∧
        (a.blocksFor l.size * a.blockSize).toInt = (a.blocksFor l.size).toInt * a.blockSize.toInt ∧
        a.owns (.offset (a.blockOffset (Int64.ofNat t)).toInt) = true) ∨
      (¬((a.blocksFor l.size).toInt < a.blockCount.toInt ∧
          ∃ t, a.FitsAt (a.blocksFor l.size) l.align t) ∧
        ∃ f, f.Refusal ∧ (Arena.alloc l).run a = .error f a)) := by
  have g := ht.geometry
  have hbs := g.blockSize_pos
  have hpos := Arena.one_le_blocksFor hbs hl.1 hl.2
  have haddr : ∀ t : Nat, (t : Int) ≤ a.blockCount.toInt →
      (a.blockOffset (Int64.ofNat t)).toInt = (a.managementBlocks.toInt + t) * a.blockSize.toInt := by
    intro t ht
    have htInt : (Int64.ofNat t).toInt = t :=
      Int64.toInt_ofNat_of_lt (by have := g.blockCount_lt; omega)
    rw [g.blockOffset_toInt (by omega) (by omega), htInt]
  refine ⟨Arena.blocksFor_eq_ceil g hl.1 hl.2, fun t ht =>
    ⟨haddr t ht, by rw [← haddr t ht]; simp only [Arena.blockAligned, g.live, Bool.false_eq_true,
      ite_false]⟩, ?_⟩
  rcases Arena.alloc_cases g hl.1 hl.2 with ⟨f, hf, hrun⟩ | ⟨t, bytes, hlt, hfit, hmin, hmark, hrun⟩
  · -- a refusal: too many blocks, or no block fits
    refine .inr ⟨fun ⟨hlt, t, hfit⟩ => ?_, f, hf, hrun⟩
    exact Arena.alloc_refused_no_fit g hcheck (by omega) hlt hrun t hfit
  · have htn : (t : Int) < a.blockCount.toInt := by have := hfit.1; omega
    refine .inl ⟨t, bytes, hlt, hfit, hmin, hmark, hrun, g.blocks_toInt (by omega) hlt.le,
      g.owns_blockOffset (by rw [Int64.toInt_ofNat_of_lt (by have := g.blockCount_lt; omega)]; omega)
        (by rw [Int64.toInt_ofNat_of_lt (by have := g.blockCount_lt; omega)]; exact htn)⟩

/-- Eight blocks of eight bytes over a buffer of 72 bytes, none in use: a request for 16 bytes
    aligned to 8 needs two blocks, and is served from the lowest block that fits. -/
theorem first_fit_on_new_arena :
    ∃ a : Arena, Arena.create true 72 8 8 8 = .ok a ∧ Tracks a [] ∧
      (⟨16, 8⟩ : Layout).check = .ok () ∧ a.Sized ⟨16, 8⟩ ∧ (a.blocksFor 16).toInt = 2 := by
  obtain ⟨a, hcreate⟩ : ∃ a, Arena.create true 72 8 8 8 = .ok a := ⟨_, rfl⟩
  have ht : Tracks a [] := Tracks.of_create hcreate (by decide) (by decide)
  have hbs : a.blockSize = 8 := by
    obtain ⟨-, -, -, -, rfl⟩ := Arena.create_inv hcreate
    rfl
  have hsized : a.Sized ⟨16, 8⟩ := by
    simp only [Arena.Sized, hbs]
    decide
  refine ⟨a, hcreate, ht, rfl, hsized, ?_⟩
  rw [(alloc_is_first_fit ht rfl hsized).1, hbs]
  decide

end BlockArena
