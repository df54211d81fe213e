import Mathlib
import BlockArena.Proofs.FirstFit

/-! # What each block request does

One lemma per request of an arena with its geometry says every way the request can end, with
the table it leaves as a `Marked` run and the counters it writes:

* `alloc_cases`: a layout whose size rounds up without overflow is refused (`Fault.Refusal`)
  with the arena unchanged, or served from the first fitting run `t` of `blocksFor size`
  blocks, which is marked used;
* `dealloc_spec`, `relocate_spec`, `growInPlace_spec`, `shrinkInPlace_spec`: the requests that
  name a run `[s, s + c)` of the arena by its address, with a layout of `c` blocks.

Every later proof about requests cites these and never unfolds a request.
-/

set_option autoImplicit false

namespace BlockArena

/-- A refusal: an allocation error handed back to the caller, not an abort. -/
def Fault.Refusal (f : Fault) : Prop := f.kind = .allocation ∧ f.aborts = false

namespace Arena

/-- There is room after the run `[s, s + oc)` to grow it to `nc` blocks: fewer than all blocks
    are asked for, the grown run ends inside the arena, and the blocks `[s + oc, s + nc)` are
    free. -/
def RoomAfter (a : Arena) (s : Nat) (oc nc : Int) : Prop :=
  nc < a.blockCount.toInt ∧ s + nc ≤ a.blockCount.toInt ∧
    ∀ b : Nat, s + oc ≤ b → b < s + nc → a.usedBit b = false

theorem growInPlace_of_le {a : Arena} {off : Int64} {old new : Layout}
    (hle : a.blocksFor new.size ≤ a.blocksFor old.size) :
    (growInPlace off old new).run a = .ok (a.blocksFor old.size * a.blockSize, true) a := by
  simp only [growInPlace, EStateM.run, bind, EStateM.bind, get, getThe, MonadStateOf.get,
    EStateM.get, hle, ite_true, pure, EStateM.pure]

theorem shrinkInPlace_of_le {a : Arena} {off : Int64} {old new : Layout}
    (hle : a.blocksFor old.size ≤ a.blocksFor new.size) :
    (shrinkInPlace off old new).run a = .ok (a.blocksFor old.size * a.blockSize) a := by
  simp only [shrinkInPlace, EStateM.run, bind, EStateM.bind, get, getThe, MonadStateOf.get,
    EStateM.get, hle, ite_true, pure, EStateM.pure]

/-- A request that passes the check, asks for fewer blocks than the arena has and finds its first
    fit at `start`: the run from `start` is marked used, and one allocation and its blocks are
    counted. -/
theorem alloc_run_of_fit {a a' : Arena} {l : Layout} {start : Int64} (hc : l.check = .ok ())
    (hbig : ¬a.blockCount ≤ a.blocksFor l.size)
    (hr : a.firstFit (a.blocksFor l.size) l.align = .ok (some start))
    (hmark : markRun start (a.blocksFor l.size) true a = .ok () a') :
    (alloc l).run a = .ok (a.blockOffset start, a.blocksFor l.size * a.blockSize)
      { a' with allocationCount := a'.allocationCount + 1,
                usedBlocks := a'.usedBlocks + a.blocksFor l.size } := by
  simp only [alloc, EStateM.run, hc, bind, EStateM.bind, get, getThe, MonadStateOf.get,
    EStateM.get, hbig, ite_false, Act.ofExcept, hr, pure, EStateM.pure, hmark, modify, modifyGet,
    MonadStateOf.modifyGet, EStateM.modifyGet]

variable {a : Arena} (g : a.Geometry)
include g

/-- Serving a layout whose size rounds up to blocks without overflow: a refusal keeps the
    arena, and a success takes the first run that fits. -/
theorem alloc_cases {l : Layout} (h0 : 0 ≤ l.size.toInt)
    (hmax : l.size.toInt + a.blockSize.toInt - 1 ≤ Word.maxInt.toInt) :
    (∃ f, f.Refusal ∧ (alloc l).run a = .error f a) ∨
    ∃ (t : Nat) (bytes : ByteArray),
      (a.blocksFor l.size).toInt < a.blockCount.toInt ∧
      a.FitsAt (a.blocksFor l.size) l.align t ∧
      (∀ v, v < t → ¬a.FitsAt (a.blocksFor l.size) l.align v) ∧
      a.Marked bytes t (a.blocksFor l.size).toInt true ∧
      (alloc l).run a = .ok (a.blockOffset (Int64.ofNat t), a.blocksFor l.size * a.blockSize)
        { a with bytes := bytes, allocationCount := a.allocationCount + 1,
                 usedBlocks := a.usedBlocks + a.blocksFor l.size } := by
  cases hc : l.check with
  | error f =>
    exact .inl ⟨.invalidLayout f, ⟨rfl, rfl⟩, by simp only [alloc, EStateM.run, hc]; rfl⟩
  | ok u =>
    cases u
    have hpos := one_le_blocksFor g.blockSize_pos h0 hmax
    by_cases hbig : a.blockCount ≤ a.blocksFor l.size
    · refine .inl ⟨.tooManyBlocks l (a.blocksFor l.size) a.blockCount, ⟨rfl, rfl⟩, ?_⟩
      simp only [alloc, EStateM.run, hc, bind, EStateM.bind, get, getThe, MonadStateOf.get,
        EStateM.get, hbig, ite_true]
      rfl
    · have hlt : (a.blocksFor l.size).toInt < a.blockCount.toInt := by
        have h' : ¬a.blockCount.toInt ≤ (a.blocksFor l.size).toInt :=
          fun h => hbig (Int64.le_iff_toInt_le.2 h)
        omega
      obtain ⟨r, hr, hfirst⟩ := firstFit_spec g l.align hpos hlt.le
      cases r with
      | none =>
        refine .inl ⟨.noFreeRun (a.blocksFor l.size) l, ⟨rfl, rfl⟩, ?_⟩
        simp only [alloc, EStateM.run, hc, bind, EStateM.bind, get, getThe, MonadStateOf.get,
          EStateM.get, hbig, ite_false, Act.ofExcept, hr, pure, EStateM.pure]
        rfl
      | some t =>
        obtain ⟨u, htu, -, hfit, hmin⟩ := hfirst
        obtain ⟨bytes, hrun, hmarked⟩ := markRun_spec t (a.blocksFor l.size) true a (by omega)
          (by have := hfit.1; have := g.table_covers; omega) g.table_le_size g.table_lt
        have ht : t = Int64.ofNat u := by
          have := hfit.1
          have := g.blockCount_lt
          apply Int64.toInt_inj.1
          rw [htu, Int64.toInt_ofNat_of_lt (by omega)]
        rw [htu] at hmarked
        refine .inr ⟨u, bytes, hlt, hfit, fun v hv => hmin v (Nat.zero_le v) hv, hmarked, ?_⟩
        rw [← ht]
        exact alloc_run_of_fit hc hbig hr hrun

/-- Freeing a run `[s, s + c)` of the arena, `c` the blocks the layout needs. -/
theorem dealloc_spec {s : Nat} {l : Layout} (hs : (s : Int) < a.blockCount.toInt)
    (hend : s + (a.blocksFor l.size).toInt ≤ a.blockCount.toInt) :
    ∃ bytes : ByteArray, a.Marked bytes s (a.blocksFor l.size).toInt false ∧
      (dealloc (a.blockOffset (Int64.ofNat s)) l).run a =
        .ok () { a with bytes := bytes, allocationCount := a.allocationCount - 1,
                        usedBlocks := a.usedBlocks - a.blocksFor l.size } := by
  have hsInt := g.toInt_ofNat (by omega : (s : Int) ≤ a.blockCount.toInt)
  have howns : a.owns (.offset (a.blockOffset (Int64.ofNat s)).toInt) = true :=
    g.owns_blockOffset (by omega) (by omega)
  have hidx : a.blockIndex (a.blockOffset (Int64.ofNat s)) = Int64.ofNat s :=
    g.blockIndex_blockOffset (by omega) (by omega)
  obtain ⟨bytes, hrun, hmarked⟩ := markRun_spec (Int64.ofNat s) (a.blocksFor l.size) false a
    (by omega) (by have := g.table_covers; omega) g.table_le_size g.table_lt
  rw [hsInt] at hmarked
  refine ⟨bytes, hmarked, ?_⟩
  simp only [dealloc, EStateM.run, bind, EStateM.bind, get, getThe, MonadStateOf.get,
    EStateM.get, howns, Bool.not_true, Bool.false_eq_true, ite_false, hidx, hrun, modify,
    modifyGet, MonadStateOf.modifyGet, EStateM.modifyGet]

/-- Moving the run `[s, s + c)`: its blocks are freed first, then the first fit for `c` blocks
    in the arena that leaves is taken; when there is none, the run is marked used again. -/
theorem relocate_spec {s : Nat} {l : Layout} (hs : (s : Int) < a.blockCount.toInt)
    (hend : s + (a.blocksFor l.size).toInt ≤ a.blockCount.toInt)
    (hpos : 0 < (a.blocksFor l.size).toInt) :
    ∃ bytes₁ : ByteArray, a.Marked bytes₁ s (a.blocksFor l.size).toInt false ∧
      ((∃ bytes₂ : ByteArray,
          (∀ v, ¬FitsAt { a with bytes := bytes₁ } (a.blocksFor l.size) l.align v) ∧
          Marked { a with bytes := bytes₁ } bytes₂ s (a.blocksFor l.size).toInt true ∧
          (relocate (a.blockOffset (Int64.ofNat s)) l).run a =
            .error (.noFreeRunToRelocate (a.blocksFor l.size) l) { a with bytes := bytes₂ }) ∨
        ∃ (t : Nat) (bytes₂ : ByteArray),
          FitsAt { a with bytes := bytes₁ } (a.blocksFor l.size) l.align t ∧
          (∀ v, v < t → ¬FitsAt { a with bytes := bytes₁ } (a.blocksFor l.size) l.align v) ∧
          Marked { a with bytes := bytes₁ } bytes₂ t (a.blocksFor l.size).toInt true ∧
          (relocate (a.blockOffset (Int64.ofNat s)) l).run a =
            .ok (a.blockOffset (Int64.ofNat t), a.blocksFor l.size * a.blockSize)
              { a with bytes := bytes₂ }) := by
  have hsInt := g.toInt_ofNat (by omega : (s : Int) ≤ a.blockCount.toInt)
  have howns : a.owns (.offset (a.blockOffset (Int64.ofNat s)).toInt) = true :=
    g.owns_blockOffset (by omega) (by omega)
  have hidx : a.blockIndex (a.blockOffset (Int64.ofNat s)) = Int64.ofNat s :=
    g.blockIndex_blockOffset (by omega) (by omega)
  obtain ⟨bytes₁, hrun₁, hm₁⟩ := markRun_spec (Int64.ofNat s) (a.blocksFor l.size) false a
    (by omega) (by have := g.table_covers; omega) g.table_le_size g.table_lt
  rw [hsInt] at hm₁
  have g₁ : Geometry { a with bytes := bytes₁ } :=
    g.withBytes bytes₁ hm₁.size_eq a.allocationCount a.usedBlocks
  refine ⟨bytes₁, hm₁, ?_⟩
  obtain ⟨r, hr, hfirst⟩ := firstFit_spec g₁ l.align hpos (by dsimp only; omega)
  cases r with
  | none =>
    obtain ⟨bytes₂, hrun₂, hm₂⟩ := markRun_spec (Int64.ofNat s) (a.blocksFor l.size) true
      { a with bytes := bytes₁ } (by omega) (by dsimp only; have := g.table_covers; omega)
      g₁.table_le_size g₁.table_lt
    rw [hsInt] at hm₂
    refine .inl ⟨bytes₂, fun v => hfirst v (Nat.zero_le v), hm₂, ?_⟩
    simp only [relocate, EStateM.run, bind, EStateM.bind, get, getThe, MonadStateOf.get,
      EStateM.get, howns, Bool.not_true, Bool.false_eq_true, ite_false, hidx, hrun₁, Act.ofExcept,
      hr, pure, EStateM.pure, hrun₂]
    rfl
  | some t =>
    obtain ⟨u, htu, -, hfit, hmin⟩ := hfirst
    have hut : (u : Int) + (a.blocksFor l.size).toInt ≤ a.blockCount.toInt := hfit.1
    have ht : t = Int64.ofNat u := by
      have := g.blockCount_lt
      apply Int64.toInt_inj.1
      rw [htu, Int64.toInt_ofNat_of_lt (by omega)]
    obtain ⟨bytes₂, hrun₂, hm₂⟩ := markRun_spec t (a.blocksFor l.size) true
      { a with bytes := bytes₁ } (by omega) (by dsimp only; have := g.table_covers; omega)
      g₁.table_le_size g₁.table_lt
    rw [htu] at hm₂
    refine .inr ⟨u, bytes₂, hfit, fun v hv => hmin v (Nat.zero_le v) hv, hm₂, ?_⟩
    rw [← ht]
    simp only [relocate, EStateM.run, bind, EStateM.bind, get, getThe, MonadStateOf.get,
      EStateM.get, howns, Bool.not_true, Bool.false_eq_true, ite_false, hidx, hrun₁, Act.ofExcept,
      hr, pure, EStateM.pure, hrun₂]

/-- Growing the run `[s, s + oc)` to more blocks `nc` succeeds exactly when there is room after
    it (`RoomAfter`): the blocks `[s + oc, s + nc)` are then marked used and counted, and
    otherwise nothing changes. The bound on the arena keeps `s + nc` from wrapping. -/
theorem growInPlace_room {s : Nat} {old new : Layout} (hroom : 2 * a.blockCount.toInt ≤ 2 ^ 63)
    (hs : (s : Int) < a.blockCount.toInt)
    (hend : s + (a.blocksFor old.size).toInt ≤ a.blockCount.toInt)
    (hold : 0 ≤ (a.blocksFor old.size).toInt)
    (hlt : (a.blocksFor old.size).toInt < (a.blocksFor new.size).toInt) :
    (a.RoomAfter s (a.blocksFor old.size).toInt (a.blocksFor new.size).toInt ∧
      ∃ bytes : ByteArray,
        a.Marked bytes (s + (a.blocksFor old.size).toInt)
          ((a.blocksFor new.size).toInt - (a.blocksFor old.size).toInt) true ∧
        (growInPlace (a.blockOffset (Int64.ofNat s)) old new).run a =
          .ok (a.blocksFor new.size * a.blockSize, true)
            { a with bytes := bytes,
                     usedBlocks := a.usedBlocks + (a.blocksFor new.size - a.blocksFor old.size) }) ∨
      (¬a.RoomAfter s (a.blocksFor old.size).toInt (a.blocksFor new.size).toInt ∧
        (growInPlace (a.blockOffset (Int64.ofNat s)) old new).run a = .ok (0, false) a) := by
  have hsInt := g.toInt_ofNat (by omega : (s : Int) ≤ a.blockCount.toInt)
  have hidx : a.blockIndex (a.blockOffset (Int64.ofNat s)) = Int64.ofNat s :=
    g.blockIndex_blockOffset (by omega) (by omega)
  have hle : ¬a.blocksFor new.size ≤ a.blocksFor old.size := fun h =>
    absurd (Int64.le_iff_toInt_le.1 h) (by omega)
  by_cases hbad : (a.released || a.blockCount ≤ a.blocksFor new.size ||
      a.blockCount < Int64.ofNat s + a.blocksFor new.size) = true
  · -- a guard fails: all blocks or more are asked for, or the grown run ends past the arena
    refine .inr ⟨fun ⟨hnew, hinside, _⟩ => ?_, ?_⟩
    · have hsum : (Int64.ofNat s + a.blocksFor new.size).toInt =
          s + (a.blocksFor new.size).toInt := by
        rw [Word.toInt_add_of_fits] <;> rw [hsInt]
        exact ⟨by omega, by omega⟩
      simp only [g.live, Bool.false_or, Bool.or_eq_true, decide_eq_true_eq] at hbad
      rcases hbad with hbig | hout
      · exact absurd (Int64.le_iff_toInt_le.1 hbig) (by omega)
      · have := Int64.lt_iff_toInt_lt.1 hout
        omega
    · simp only [growInPlace, EStateM.run, bind, EStateM.bind, get, getThe, MonadStateOf.get,
        EStateM.get, hle, ite_false, hidx, hbad, ite_true, pure, EStateM.pure]
  simp only [g.live, Bool.false_or, Bool.or_eq_true, decide_eq_true_eq, not_or] at hbad
  obtain ⟨hbig, hout⟩ := hbad
  have hnew : (a.blocksFor new.size).toInt < a.blockCount.toInt := by
    have h' : ¬a.blockCount.toInt ≤ (a.blocksFor new.size).toInt :=
      fun h => hbig (Int64.le_iff_toInt_le.2 h)
    omega
  have hsum : (Int64.ofNat s + a.blocksFor new.size).toInt = s + (a.blocksFor new.size).toInt := by
    rw [Word.toInt_add_of_fits] <;> rw [hsInt]
    exact ⟨by omega, by omega⟩
  have hinside : s + (a.blocksFor new.size).toInt ≤ a.blockCount.toInt := by
    have h' : ¬a.blockCount.toInt < (Int64.ofNat s + a.blocksFor new.size).toInt :=
      fun h => hout (Int64.lt_iff_toInt_lt.2 h)
    omega
  have hfirst : (Int64.ofNat s + a.blocksFor old.size).toInt = s + (a.blocksFor old.size).toInt := by
    rw [Word.toInt_add_of_fits] <;> rw [hsInt]
    exact ⟨by omega, by omega⟩
  have hdiff : (a.blocksFor new.size - a.blocksFor old.size).toInt =
      (a.blocksFor new.size).toInt - (a.blocksFor old.size).toInt := by
    rw [Word.toInt_sub_of_fits]
    exact ⟨by omega, by omega⟩
  obtain ⟨free, hfree, hiff⟩ := runFree_spec (Int64.ofNat s + a.blocksFor old.size)
    (a.blocksFor new.size - a.blocksFor old.size) a (by omega)
    (by have := g.table_covers; omega) g.table_le_size g.table_lt
  rw [hfirst, hdiff] at hiff
  cases free with
  | false =>
    refine .inr ⟨fun ⟨_, _, hall⟩ => Bool.false_ne_true (hiff.2 fun b h1 h2 => hall b h1 (by omega)),
      ?_⟩
    simp only [growInPlace, EStateM.run, bind, EStateM.bind, get, getThe, MonadStateOf.get,
      EStateM.get, hle, ite_false, hidx, hbig, hout, g.live, Act.ofExcept, hfree,
      pure, EStateM.pure, decide_false, Bool.or_false, Bool.false_eq_true, Bool.not_false, ite_true]
  | true =>
    obtain ⟨bytes, hrun, hm⟩ := markRun_spec (Int64.ofNat s + a.blocksFor old.size)
      (a.blocksFor new.size - a.blocksFor old.size) true a (by omega)
      (by have := g.table_covers; omega) g.table_le_size g.table_lt
    rw [hfirst, hdiff] at hm
    refine .inl ⟨⟨hnew, hinside, fun b h1 h2 => hiff.1 rfl b h1 (by omega)⟩, bytes, hm, ?_⟩
    simp only [growInPlace, EStateM.run, bind, EStateM.bind, get, getThe, MonadStateOf.get,
      EStateM.get, hle, ite_false, hidx, hbig, hout, g.live, Act.ofExcept, hfree,
      pure, EStateM.pure, decide_false, Bool.or_false, Bool.false_eq_true, Bool.not_true, hrun, modify, modifyGet,
      MonadStateOf.modifyGet, EStateM.modifyGet]

/-- Growing the run `[s, s + oc)` to `nc` blocks: a request for no more blocks succeeds at
    once; otherwise the run grows exactly when the blocks `[s + oc, s + nc)` lie in the arena
    and are free, and fewer than all blocks are asked for. The bound on the arena keeps
    `s + nc` from wrapping. -/
theorem growInPlace_spec {s : Nat} {old new : Layout} (hroom : 2 * a.blockCount.toInt ≤ 2 ^ 63)
    (hs : (s : Int) < a.blockCount.toInt)
    (hend : s + (a.blocksFor old.size).toInt ≤ a.blockCount.toInt)
    (hold : 0 ≤ (a.blocksFor old.size).toInt) :
    ((a.blocksFor new.size).toInt ≤ (a.blocksFor old.size).toInt ∧
        (growInPlace (a.blockOffset (Int64.ofNat s)) old new).run a =
          .ok (a.blocksFor old.size * a.blockSize, true) a) ∨
      (growInPlace (a.blockOffset (Int64.ofNat s)) old new).run a = .ok (0, false) a ∨
      ((a.blocksFor old.size).toInt < (a.blocksFor new.size).toInt ∧
        (a.blocksFor new.size).toInt < a.blockCount.toInt ∧
        s + (a.blocksFor new.size).toInt ≤ a.blockCount.toInt ∧
        (∀ b : Nat, s + (a.blocksFor old.size).toInt ≤ b → b < s + (a.blocksFor new.size).toInt →
          a.usedBit b = false) ∧
        ∃ bytes : ByteArray,
          a.Marked bytes (s + (a.blocksFor old.size).toInt)
            ((a.blocksFor new.size).toInt - (a.blocksFor old.size).toInt) true ∧
          (growInPlace (a.blockOffset (Int64.ofNat s)) old new).run a =
            .ok (a.blocksFor new.size * a.blockSize, true)
              { a with bytes := bytes,
                       usedBlocks := a.usedBlocks + (a.blocksFor new.size - a.blocksFor old.size) }) := by
  by_cases hle : a.blocksFor new.size ≤ a.blocksFor old.size
  · exact .inl ⟨Int64.le_iff_toInt_le.1 hle, growInPlace_of_le hle⟩
  have hlt : (a.blocksFor old.size).toInt < (a.blocksFor new.size).toInt := by
    have h' : ¬(a.blocksFor new.size).toInt ≤ (a.blocksFor old.size).toInt :=
      fun h => hle (Int64.le_iff_toInt_le.2 h)
    omega
  rcases growInPlace_room g hroom hs hend hold hlt with
    ⟨⟨hnew, hinside, hfree⟩, hgrown⟩ | ⟨-, hrun⟩
  · exact .inr (.inr ⟨hlt, hnew, hinside, hfree, hgrown⟩)
  · exact .inr (.inl hrun)

/-- Shrinking the run `[s, s + oc)` to fewer blocks `nc`, where block `s + nc` is not below the
    table's first block, clears the blocks `[s + nc, s + oc)` and uncounts them. -/
theorem shrinkInPlace_clears {s : Nat} {old new : Layout} (hs : (s : Int) < a.blockCount.toInt)
    (hend : s + (a.blocksFor old.size).toInt ≤ a.blockCount.toInt)
    (hlt : (a.blocksFor new.size).toInt < (a.blocksFor old.size).toInt)
    (hnew : 0 ≤ s + (a.blocksFor new.size).toInt) :
    ∃ bytes : ByteArray,
      a.Marked bytes (s + (a.blocksFor new.size).toInt)
        ((a.blocksFor old.size).toInt - (a.blocksFor new.size).toInt) false ∧
      (shrinkInPlace (a.blockOffset (Int64.ofNat s)) old new).run a =
        .ok (a.blocksFor new.size * a.blockSize)
          { a with bytes := bytes,
                   usedBlocks := a.usedBlocks - (a.blocksFor old.size - a.blocksFor new.size) } := by
  have hsInt := g.toInt_ofNat (by omega : (s : Int) ≤ a.blockCount.toInt)
  have hidx : a.blockIndex (a.blockOffset (Int64.ofNat s)) = Int64.ofNat s :=
    g.blockIndex_blockOffset (by omega) (by omega)
  have hle : ¬a.blocksFor old.size ≤ a.blocksFor new.size := fun h =>
    absurd (Int64.le_iff_toInt_le.1 h) (by omega)
  have hfirst : (Int64.ofNat s + a.blocksFor new.size).toInt = s + (a.blocksFor new.size).toInt := by
    rw [Word.toInt_add_of_fits] <;> rw [hsInt]
    exact ⟨by omega, by have := g.blockCount_lt; omega⟩
  have hdiff : (a.blocksFor old.size - a.blocksFor new.size).toInt =
      (a.blocksFor old.size).toInt - (a.blocksFor new.size).toInt := by
    rw [Word.toInt_sub_of_fits]
    exact ⟨by omega, by have := g.blockCount_lt; omega⟩
  obtain ⟨bytes, hrun, hm⟩ := markRun_spec (Int64.ofNat s + a.blocksFor new.size)
    (a.blocksFor old.size - a.blocksFor new.size) false a (by omega)
    (by have := g.table_covers; omega) g.table_le_size g.table_lt
  rw [hfirst, hdiff] at hm
  refine ⟨bytes, hm, ?_⟩
  simp only [shrinkInPlace, EStateM.run, bind, EStateM.bind, get, getThe, MonadStateOf.get,
    EStateM.get, hle, ite_false, hidx, hrun, modify, modifyGet, MonadStateOf.modifyGet,
    EStateM.modifyGet, pure, EStateM.pure]

/-- Shrinking the run `[s, s + oc)` to `nc` blocks gives back its last `oc - nc` blocks; a
    request for no fewer blocks changes nothing. -/
theorem shrinkInPlace_spec {s : Nat} {old new : Layout} (hs : (s : Int) < a.blockCount.toInt)
    (hend : s + (a.blocksFor old.size).toInt ≤ a.blockCount.toInt)
    (hnew : 0 ≤ (a.blocksFor new.size).toInt) :
    ((a.blocksFor old.size).toInt ≤ (a.blocksFor new.size).toInt ∧
        (shrinkInPlace (a.blockOffset (Int64.ofNat s)) old new).run a =
          .ok (a.blocksFor old.size * a.blockSize) a) ∨
      ((a.blocksFor new.size).toInt < (a.blocksFor old.size).toInt ∧
        ∃ bytes : ByteArray,
          a.Marked bytes (s + (a.blocksFor new.size).toInt)
            ((a.blocksFor old.size).toInt - (a.blocksFor new.size).toInt) false ∧
          (shrinkInPlace (a.blockOffset (Int64.ofNat s)) old new).run a =
            .ok (a.blocksFor new.size * a.blockSize)
              { a with bytes := bytes,
                       usedBlocks := a.usedBlocks - (a.blocksFor old.size - a.blocksFor new.size) }) := by
  by_cases hle : a.blocksFor old.size ≤ a.blocksFor new.size
  · exact .inl ⟨Int64.le_iff_toInt_le.1 hle, shrinkInPlace_of_le hle⟩
  have hlt : (a.blocksFor new.size).toInt < (a.blocksFor old.size).toInt := by
    have h' : ¬(a.blocksFor old.size).toInt ≤ (a.blocksFor new.size).toInt :=
      fun h => hle (Int64.le_iff_toInt_le.2 h)
    omega
  exact .inr ⟨hlt, shrinkInPlace_clears g hs hend hlt (by omega)⟩

end Arena

end BlockArena
