import Mathlib.Algebra.BigOperators.Group.List.Basic
import Mathlib.Order.Interval.Finset.Nat
import BlockArena.Proofs.Buffer
import BlockArena.Proofs.Requests

/-! # The occupancy table tracks the live allocations

An arena keeps only its occupancy table and two counters. A client keeps the list of runs of
blocks it holds (`Extent`); `Tracks a live` says that arena `a` accounts for exactly these runs:
they lie in the arena, no two share a block, a block's bit is set exactly when a live run covers
it, and the counters are the number of runs and the blocks they hold.

The main statement, `tracks_live_runs`: a new arena tracks no runs, and every call a client makes
while keeping its promises (`Call.Allowed`: layouts that round up without overflow, named runs
that are live with their exact layout, writes inside live runs) keeps the table tracking the live
runs. Each request reaches the invariant through three moves, each proved once: a free run joins
(`Tracks.insert`), a live run leaves (`Tracks.erase`), a live run changes its length in place
(`Tracks.resize`). Buffers are no larger than the heap serves (`Arena.heapLimit`); past `2^62`
blocks the bound of `growInPlace` could wrap.
-/

set_option autoImplicit false

namespace BlockArena

/-- A run of blocks handed out by an arena: its first block and how many blocks it spans. -/
structure Extent where
  start : Nat
  count : Nat
  deriving DecidableEq, Repr

namespace Extent

/-- Block `b` is one of the run's blocks. -/
def Covers (e : Extent) (b : Nat) : Prop := e.start ≤ b ∧ b < e.start + e.count

instance (e : Extent) : DecidablePred e.Covers := fun _ => inferInstanceAs (Decidable (_ ∧ _))

/-- Two runs share no block. -/
def Apart (e f : Extent) : Prop := e.start + e.count ≤ f.start ∨ f.start + f.count ≤ e.start

theorem Apart.symm {e f : Extent} (h : e.Apart f) : f.Apart e := Or.symm h

theorem Apart.not_covers {e f : Extent} (h : e.Apart f) {b : Nat} (he : e.Covers b) :
    ¬f.Covers b := by
  unfold Covers at *
  unfold Apart at h
  omega

/-- Two runs of at least one block each that share no block are apart: otherwise the later of
    their first blocks lies in both. -/
theorem apart_of_not_covers {e f : Extent} (he : 0 < e.count) (hf : 0 < f.count)
    (h : ∀ b, e.Covers b → ¬f.Covers b) : e.Apart f := by
  by_contra hn
  unfold Apart at hn
  exact h (max e.start f.start) ⟨by omega, by omega⟩ ⟨by omega, by omega⟩

theorem card_covers (e : Extent) {N : Nat} (h : e.start + e.count ≤ N) :
    ((Finset.range N).filter e.Covers).card = e.count := by
  have hset : (Finset.range N).filter e.Covers = Finset.Ico e.start (e.start + e.count) := by
    ext b
    simp only [Finset.mem_filter, Finset.mem_range, Finset.mem_Ico, Covers]
    omega
  rw [hset, Nat.card_Ico]
  omega

/-- The address of the run's first block in an arena. -/
def addr (e : Extent) (a : Arena) : Int64 := a.blockOffset (Int64.ofNat e.start)

end Extent

/-- Block `b` belongs to one of the runs. -/
def Occupied (live : List Extent) (b : Nat) : Prop := ∃ e ∈ live, e.Covers b

instance (live : List Extent) : DecidablePred (Occupied live) :=
  fun _ => List.decidableBEx _ live

@[simp] theorem occupied_nil (b : Nat) : ¬Occupied [] b := by
  simp [Occupied]

@[simp] theorem occupied_cons (e : Extent) (live : List Extent) (b : Nat) :
    Occupied (e :: live) b ↔ e.Covers b ∨ Occupied live b := by
  simp [Occupied]

/-- Runs that are pairwise apart inside `[0, N)` cover together as many blocks as their counts
    add up to. -/
theorem card_occupied (N : Nat) : ∀ live : List Extent, live.Pairwise Extent.Apart →
    (∀ e ∈ live, e.start + e.count ≤ N) →
    ((Finset.range N).filter (Occupied live)).card = (live.map Extent.count).sum
  | [], _, _ => by simp
  | e :: live, hp, hin => by
    rw [List.pairwise_cons] at hp
    have hsplit : (Finset.range N).filter (Occupied (e :: live)) =
        (Finset.range N).filter e.Covers ∪ (Finset.range N).filter (Occupied live) := by
      rw [← Finset.filter_or]
      simp only [occupied_cons]
    have hdisj : Disjoint ((Finset.range N).filter e.Covers)
        ((Finset.range N).filter (Occupied live)) := by
      rw [Finset.disjoint_filter]
      rintro b - hb ⟨f, hf, hfb⟩
      exact (hp.1 f hf).not_covers hb hfb
    rw [hsplit, Finset.card_union_of_disjoint hdisj, e.card_covers (hin e List.mem_cons_self),
      card_occupied N live hp.2 (fun f hf => hin f (List.mem_cons_of_mem e hf))]
    simp

theorem length_le_sum_count {live : List Extent} (h : ∀ e ∈ live, 0 < e.count) :
    live.length ≤ (live.map Extent.count).sum := by
  have hle := List.length_le_sum_of_one_le (live.map Extent.count) (by
    intro i hi
    obtain ⟨e, he, rfl⟩ := List.mem_map.1 hi
    exact h e he)
  rwa [List.length_map] at hle

theorem sum_count_le {n : Int} {live : List Extent} (hn : 0 ≤ n)
    (hp : live.Pairwise Extent.Apart) (hin : ∀ e ∈ live, (e.start + e.count : Int) ≤ n) :
    ((live.map Extent.count).sum : Int) ≤ n := by
  have hcard := card_occupied n.toNat live hp (fun e he => by have := hin e he; omega)
  have hle := Finset.card_filter_le (Finset.range n.toNat) (Occupied live)
  rw [Finset.card_range] at hle
  omega

namespace Arena

/-- What a client promises about a layout it asks for: a size that is not negative and rounds
    up to blocks without overflow. -/
def Sized (a : Arena) (l : Layout) : Prop :=
  0 ≤ l.size.toInt ∧ l.size.toInt + a.blockSize.toInt - 1 ≤ Word.maxInt.toInt

/-- The run an answer names: the block of its address and the blocks its size spans. -/
def runAt (a : Arena) (off size : Int64) : Extent :=
  ⟨(a.blockIndex off).toNatClampNeg, (size / a.blockSize).toNatClampNeg⟩

theorem Geometry.blocks_toInt {a : Arena} (g : a.Geometry) {c : Int64} (hc : 0 ≤ c.toInt)
    (hcn : c.toInt ≤ a.blockCount.toInt) :
    (c * a.blockSize).toInt = c.toInt * a.blockSize.toInt := by
  have hbs := g.blockSize_pos
  have hle : c.toInt * a.blockSize.toInt ≤ a.blockCount.toInt * a.blockSize.toInt :=
    Int.mul_le_mul_of_nonneg_right hcn hbs.le
  have hn : a.blockCount.toInt * a.blockSize.toInt ≤ a.bufferSize.toInt := by
    have := g.fits
    have := g.managementBlocks_nonneg
    have : a.blockCount.toInt * a.blockSize.toInt ≤
        (a.managementBlocks.toInt + a.blockCount.toInt) * a.blockSize.toInt :=
      Int.mul_le_mul_of_nonneg_right (by omega) hbs.le
    omega
  have := a.bufferSize.toInt_lt
  have := Int.mul_nonneg hc hbs.le
  exact Word.toInt_mul_of_fits ⟨by omega, by omega⟩

theorem Geometry.runAt_blockOffset {a : Arena} (g : a.Geometry) {t : Nat} {c : Int64}
    (ht : (t : Int) < a.blockCount.toInt) (hc : 0 ≤ c.toInt) (hcn : c.toInt ≤ a.blockCount.toInt) :
    a.runAt (a.blockOffset (Int64.ofNat t)) (c * a.blockSize) = ⟨t, c.toInt.toNat⟩ := by
  have htInt := g.toInt_ofNat ht.le
  have hbs := g.blockSize_pos
  have hprod := g.blocks_toInt hc hcn
  have hdiv : (c * a.blockSize / a.blockSize).toInt = c.toInt := by
    rw [Word.toInt_div_of_nonneg (by rw [hprod]; exact Int.mul_nonneg hc hbs.le) hbs, hprod,
      Int.mul_ediv_cancel _ (Int.ne_of_gt hbs)]
  unfold runAt
  rw [g.blockIndex_blockOffset (by omega) (by omega), ← Int64.toNat_toInt, ← Int64.toNat_toInt,
    htInt, hdiv, Int.toNat_natCast]

theorem Geometry.tableLength_le_blockOffset {a : Arena} (g : a.Geometry) {t : Nat}
    (ht : (t : Int) ≤ a.blockCount.toInt) :
    (a.tableLength : Int) ≤ (a.blockOffset (Int64.ofNat t)).toInt := by
  have hoff := g.blockOffset_ofNat ht
  have hle : a.managementBlocks.toInt * a.blockSize.toInt ≤
      (a.managementBlocks.toInt + t) * a.blockSize.toInt :=
    Int.mul_le_mul_of_nonneg_right (by omega) g.blockSize_pos.le
  have := g.table_eq
  omega

end Arena

/-- The table and the counters of `a` account for exactly the live runs `live`: the runs lie in
    the arena and are pairwise apart, a block's bit is set exactly when a live run covers it,
    and the counters are the number of runs and their blocks. -/
structure Tracks (a : Arena) (live : List Extent) : Prop where
  geometry : a.Geometry
  /-- The buffer is no larger than the process heap serves. -/
  bounded : a.bufferSize.toInt ≤ Arena.heapLimit.toInt
  inside : ∀ e ∈ live, 0 < e.count ∧ (e.count : Int) < a.blockCount.toInt ∧
    (e.start + e.count : Int) ≤ a.blockCount.toInt
  apart : live.Pairwise Extent.Apart
  bits : ∀ b : Nat, (b : Int) < a.blockCount.toInt → (a.usedBit b = true ↔ Occupied live b)
  allocationCount_eq : a.allocationCount.toInt = live.length
  usedBlocks_eq : a.usedBlocks.toInt = (live.map Extent.count).sum

namespace Tracks

variable {a : Arena} {live : List Extent}

theorem perm (h : Tracks a live) {live' : List Extent} (p : live.Perm live') :
    Tracks a live' where
  geometry := h.geometry
  bounded := h.bounded
  inside e he := h.inside e (p.mem_iff.2 he)
  apart := (p.pairwise_iff Extent.Apart.symm).1 h.apart
  bits b hb := by
    rw [h.bits b hb]
    exact ⟨fun ⟨e, he, hc⟩ => ⟨e, p.mem_iff.1 he, hc⟩, fun ⟨e, he, hc⟩ => ⟨e, p.mem_iff.2 he, hc⟩⟩
  allocationCount_eq := by rw [h.allocationCount_eq, p.length_eq]
  usedBlocks_eq := by rw [h.usedBlocks_eq, (p.map _).sum_eq]

theorem sum_le (h : Tracks a live) : ((live.map Extent.count).sum : Int) ≤ a.blockCount.toInt :=
  sum_count_le h.geometry.blockCount_pos.le h.apart fun e he => (h.inside e he).2.2

theorem usedBit_of_covers (h : Tracks a live) {e : Extent} (he : e ∈ live) {b : Nat}
    (hb : e.Covers b) : a.usedBit b = true := by
  have := (h.inside e he).2.2
  unfold Extent.Covers at hb
  exact (h.bits b (by omega)).2 ⟨e, he, hb⟩

/-- Bytes that agree with the old ones all over the table, in a buffer of the same size, keep
    the table tracking the same runs: writes into the blocks are invisible to it. -/
theorem withBytes (h : Tracks a live) {bytes : ByteArray} (hsize : bytes.size = a.bytes.size)
    (hkeep : ∀ k, k < a.tableLength → Buffer.byteAt bytes k = Buffer.byteAt a.bytes k) :
    Tracks { a with bytes := bytes } live := by
  have g := h.geometry
  refine ⟨g.withBytes _ hsize _ _, h.bounded, h.inside, h.apart, fun b hb => ?_,
    h.allocationCount_eq, h.usedBlocks_eq⟩
  have hb' : (b : Int) < a.blockCount.toInt := hb
  have hcov := g.table_covers
  show Arena.usedBit { a with bytes := bytes } b = true ↔ _
  rw [← h.bits b hb']
  unfold Arena.usedBit
  dsimp only
  rw [hkeep (b / 8) (by omega)]

/-- A run of free blocks inside the arena joins the live runs when it is marked used and
    counted. -/
theorem insert (h : Tracks a live) {e : Extent} {bytes : ByteArray} {c : Int64}
    (hc : c.toInt = e.count) (hpos : 0 < e.count) (hlt : (e.count : Int) < a.blockCount.toInt)
    (hend : (e.start + e.count : Int) ≤ a.blockCount.toInt)
    (hfree : ∀ b, e.Covers b → a.usedBit b = false) (hm : a.Marked bytes e.start e.count true) :
    Tracks { a with bytes := bytes, allocationCount := a.allocationCount + 1,
                    usedBlocks := a.usedBlocks + c } (e :: live) := by
  have g := h.geometry
  -- the blocks of every live run are used, so the free run shares none of them
  have hapart : ∀ f ∈ live, e.Apart f := fun f hf =>
    Extent.apart_of_not_covers hpos (h.inside f hf).1 fun b hb hfb => by
      have hused := h.usedBit_of_covers hf hfb
      rw [hfree b hb] at hused
      exact Bool.false_ne_true hused
  have hinside : ∀ f ∈ e :: live, 0 < f.count ∧ (f.count : Int) < a.blockCount.toInt ∧
      (f.start + f.count : Int) ≤ a.blockCount.toInt := by
    intro f hf
    rcases List.mem_cons.1 hf with rfl | hf
    · exact ⟨hpos, hlt, hend⟩
    · exact h.inside f hf
  have happ : (e :: live).Pairwise Extent.Apart := List.pairwise_cons.2 ⟨hapart, h.apart⟩
  -- the counters stay below the arena's block count, so they do not wrap
  have hsum := sum_count_le g.blockCount_pos.le happ fun f hf => (hinside f hf).2.2
  have hlen := length_le_sum_count fun f hf => (hinside f hf).1
  have hbig := g.blockCount_lt
  simp only [List.map_cons, List.sum_cons, List.length_cons] at hsum hlen
  refine ⟨g.withBytes bytes hm.size_eq _ _, h.bounded, hinside, happ, fun b hb => ?_, ?_, ?_⟩
  · show Arena.usedBit { a with bytes := bytes } b = true ↔ _
    rw [hm.usedBit_eq b, occupied_cons]
    by_cases hcov : e.Covers b
    · have hin : (e.start : Int) ≤ b ∧ (b : Int) < e.start + e.count := by
        unfold Extent.Covers at hcov
        omega
      simp only [hin, and_self, ite_true, hcov, true_or]
    · have hout : ¬((e.start : Int) ≤ b ∧ (b : Int) < e.start + e.count) := by
        unfold Extent.Covers at hcov
        omega
      simp only [hout, ite_false, hcov, false_or]
      exact h.bits b hb
  · show (a.allocationCount + 1).toInt = _
    rw [Word.toInt_add_of_fits] <;> rw [h.allocationCount_eq, Int64.toInt_one]
    · simp only [List.length_cons, Nat.cast_add, Nat.cast_one]
    · exact ⟨by omega, by omega⟩
  · show (a.usedBlocks + c).toInt = _
    rw [Word.toInt_add_of_fits] <;> rw [h.usedBlocks_eq, hc]
    · simp only [List.map_cons, List.sum_cons, Nat.cast_add]
      omega
    · exact ⟨by omega, by omega⟩

/-- A live run leaves the live runs when its blocks are marked free and it is no longer
    counted. -/
theorem erase {e : Extent} {rest : List Extent} (h : Tracks a (e :: rest)) {bytes : ByteArray}
    {c : Int64} (hc : c.toInt = e.count) (hm : a.Marked bytes e.start e.count false) :
    Tracks { a with bytes := bytes, allocationCount := a.allocationCount - 1,
                    usedBlocks := a.usedBlocks - c } rest := by
  have g := h.geometry
  have hp := List.pairwise_cons.1 h.apart
  -- the counters stay between zero and the arena's block count, so they do not wrap
  have hsum := h.sum_le
  have hlen := length_le_sum_count fun f hf => (h.inside f hf).1
  have hbig := g.blockCount_lt
  have hcount := h.allocationCount_eq
  have hused := h.usedBlocks_eq
  simp only [List.map_cons, List.sum_cons, List.length_cons, Nat.cast_add, Nat.cast_one] at hsum hlen hcount hused
  refine ⟨g.withBytes bytes hm.size_eq _ _, h.bounded,
    fun f hf => h.inside f (List.mem_cons_of_mem e hf), hp.2, fun b hb => ?_, ?_, ?_⟩
  · show Arena.usedBit { a with bytes := bytes } b = true ↔ _
    rw [hm.usedBit_eq b]
    by_cases hcov : e.Covers b
    · -- a block of the freed run, which no other live run shares
      have hin : (e.start : Int) ≤ b ∧ (b : Int) < e.start + e.count := by
        unfold Extent.Covers at hcov
        omega
      simp only [hin, and_self, ite_true, Bool.false_eq_true, false_iff]
      rintro ⟨f, hf, hfb⟩
      exact (hp.1 f hf).not_covers hcov hfb
    · have hout : ¬((e.start : Int) ≤ b ∧ (b : Int) < e.start + e.count) := by
        unfold Extent.Covers at hcov
        omega
      rw [if_neg hout, h.bits b hb, occupied_cons]
      simp only [hcov, false_or]
  · show (a.allocationCount - 1).toInt = _
    rw [Word.toInt_sub_of_fits] <;> rw [hcount, Int64.toInt_one]
    · omega
    · exact ⟨by omega, by omega⟩
  · show (a.usedBlocks - c).toInt = _
    rw [Word.toInt_sub_of_fits] <;> rw [hused, hc]
    · omega
    · exact ⟨by omega, by omega⟩

/-- A live run that keeps its first block and changes its length to `e'.count`, with the blocks
    it gains free and marked used, the blocks it loses marked free, and the used-block counter
    moved by the difference. -/
theorem resize {e e' : Extent} {rest : List Extent} (h : Tracks a (e :: rest))
    {bytes : ByteArray} {u : Int64} (hstart : e'.start = e.start) (hpos : 0 < e'.count)
    (hlt : (e'.count : Int) < a.blockCount.toInt)
    (hend : (e'.start + e'.count : Int) ≤ a.blockCount.toInt)
    (hfree : ∀ b, e'.Covers b → ¬e.Covers b → a.usedBit b = false)
    (hsize : bytes.size = a.bytes.size)
    (hbits : ∀ b, Arena.usedBit { a with bytes := bytes } b =
      if e'.Covers b then true else if e.Covers b then false else a.usedBit b)
    (hu : u.toInt = (a.usedBlocks.toInt + (e'.count - e.count)).bmod (2 ^ 64)) :
    Tracks { a with bytes := bytes, usedBlocks := u } (e' :: rest) := by
  have g := h.geometry
  have hp := List.pairwise_cons.1 h.apart
  -- every block of the resized run is one of the old run's or was free
  have hapart : ∀ f ∈ rest, e'.Apart f := fun f hf =>
    Extent.apart_of_not_covers hpos (h.inside f (List.mem_cons_of_mem e hf)).1 fun b hb hfb => by
      by_cases hold : e.Covers b
      · exact (hp.1 f hf).not_covers hold hfb
      · have hused := h.usedBit_of_covers (List.mem_cons_of_mem e hf) hfb
        rw [hfree b hb hold] at hused
        exact Bool.false_ne_true hused
  have hinside : ∀ f ∈ e' :: rest, 0 < f.count ∧ (f.count : Int) < a.blockCount.toInt ∧
      (f.start + f.count : Int) ≤ a.blockCount.toInt := by
    intro f hf
    rcases List.mem_cons.1 hf with rfl | hf
    · exact ⟨hpos, hlt, hend⟩
    · exact h.inside f (List.mem_cons_of_mem e hf)
  have happ : (e' :: rest).Pairwise Extent.Apart := List.pairwise_cons.2 ⟨hapart, hp.2⟩
  have hsum := sum_count_le g.blockCount_pos.le happ fun f hf => (hinside f hf).2.2
  have hused := h.usedBlocks_eq
  simp only [List.map_cons, List.sum_cons, Nat.cast_add] at hsum hused
  refine ⟨g.withBytes bytes hsize _ _, h.bounded, hinside, happ, fun b hb => ?_, ?_, ?_⟩
  · show Arena.usedBit { a with bytes := bytes } b = true ↔ _
    rw [hbits b, occupied_cons]
    by_cases hnew : e'.Covers b
    · simp only [hnew, ite_true, true_or]
    · by_cases hold : e.Covers b
      · simp only [hnew, hold, ite_true, ite_false, Bool.false_eq_true, false_or, false_iff]
        rintro ⟨f, hf, hfb⟩
        exact (hp.1 f hf).not_covers hold hfb
      · simp only [hnew, hold, ite_false, false_or]
        rw [h.bits b hb, occupied_cons]
        simp only [hold, false_or]
  · rw [h.allocationCount_eq]
    simp only [List.length_cons]
  · show u.toInt = _
    rw [hu, Word.bmod_of_fits ⟨by omega, by have := g.blockCount_lt; omega⟩]
    simp only [List.map_cons, List.sum_cons, Nat.cast_add]
    omega

end Tracks

/-! ## A client's calls -/

/-- A call a client makes on an arena: one of the five block requests, each naming a live run
    by the address of its first block, or a write of bytes into the buffer. -/
inductive Call where
  | alloc (l : Layout)
  | dealloc (e : Extent) (l : Layout)
  | relocate (e : Extent) (l : Layout)
  | growInPlace (e : Extent) (old new : Layout)
  | shrinkInPlace (e : Extent) (old new : Layout)
  | write (off : Nat) (data : ByteArray)

namespace Call

/-- The arena and the live runs after a call. A request that fails keeps the arena it leaves
    and the runs; one that succeeds replaces the run it names by the run of its answer. -/
def run : Call → Arena × List Extent → Arena × List Extent
  | alloc l, (a, live) =>
    match (Arena.alloc l).run a with
    | .ok (off, size) a' => (a', a.runAt off size :: live)
    | .error _ a' => (a', live)
  | dealloc e l, (a, live) =>
    match (Arena.dealloc (e.addr a) l).run a with
    | .ok _ a' => (a', live.erase e)
    | .error _ a' => (a', live)
  | relocate e l, (a, live) =>
    match (Arena.relocate (e.addr a) l).run a with
    | .ok (off, size) a' => (a', a.runAt off size :: live.erase e)
    | .error _ a' => (a', live)
  | growInPlace e old new, (a, live) =>
    match (Arena.growInPlace (e.addr a) old new).run a with
    | .ok (size, true) a' => (a', a.runAt (e.addr a) size :: live.erase e)
    | .ok (_, false) a' => (a', live)
    | .error _ a' => (a', live)
  | shrinkInPlace e old new, (a, live) =>
    match (Arena.shrinkInPlace (e.addr a) old new).run a with
    | .ok size a' => (a', a.runAt (e.addr a) size :: live.erase e)
    | .error _ a' => (a', live)
  | write off data, (a, live) => ({ a with bytes := Buffer.write a.bytes off data }, live)

/-- What the client promises for a call on an arena with live runs `live`: the layouts it asks
    for are `Sized`, a run it names is live and its layout needs exactly the run's blocks, and
    it writes only inside a live run. -/
def Allowed : Call → Arena → List Extent → Prop
  | alloc l, a, _ => a.Sized l
  | dealloc e l, a, live => e ∈ live ∧ (a.blocksFor l.size).toInt = e.count
  | relocate e l, a, live => e ∈ live ∧ (a.blocksFor l.size).toInt = e.count
  | growInPlace e old new, a, live =>
    e ∈ live ∧ (a.blocksFor old.size).toInt = e.count ∧ a.Sized new
  | shrinkInPlace e old new, a, live =>
    e ∈ live ∧ (a.blocksFor old.size).toInt = e.count ∧ a.Sized new
  | write off data, a, live => ∃ e ∈ live,
    (e.addr a).toInt ≤ off ∧ off + data.size ≤ (e.addr a).toInt + e.count * a.blockSize.toInt

/-- Run the calls in order, each on the state the one before leaves. -/
def runAll (cs : List Call) (st : Arena × List Extent) : Arena × List Extent :=
  cs.foldl (fun st c => c.run st) st

/-- Every call keeps the client's promise in the state the calls before it leave. -/
def Obeyed : List Call → Arena × List Extent → Prop
  | [], _ => True
  | c :: cs, st => c.Allowed st.1 st.2 ∧ Obeyed cs (c.run st)

end Call

/-! ## Each call keeps the table tracking the live runs -/

namespace Tracks

variable {a : Arena} {live : List Extent}

theorem run_alloc (h : Tracks a live) {l : Layout} (hl : a.Sized l) :
    Tracks (Call.run (.alloc l) (a, live)).1 (Call.run (.alloc l) (a, live)).2 := by
  have g := h.geometry
  rcases Arena.alloc_cases g hl.1 hl.2 with ⟨f, -, hf⟩ | ⟨t, bytes, hlt, hfit, -, hm, hrun⟩
  · simp only [Call.run, hf]
    exact h
  · have hpos := Arena.one_le_blocksFor g.blockSize_pos hl.1 hl.2
    have hend : (t : Int) + (a.blocksFor l.size).toInt ≤ a.blockCount.toInt := hfit.1
    have hcast : (((a.blocksFor l.size).toInt.toNat : Nat) : Int) = (a.blocksFor l.size).toInt :=
      Int.toNat_of_nonneg (by omega)
    simp only [Call.run, hrun]
    rw [g.runAt_blockOffset (by omega) (by omega) (by omega)]
    refine h.insert hcast.symm (by dsimp only; omega) (by dsimp only; omega) (by dsimp only; omega)
      (fun b hb => ?_) (by dsimp only; rw [hcast]; exact hm)
    unfold Extent.Covers at hb
    dsimp only at hb
    exact hfit.2.2 b (by omega) (by omega)

theorem run_dealloc (h : Tracks a live) {e : Extent} {l : Layout} (he : e ∈ live)
    (hl : (a.blocksFor l.size).toInt = e.count) :
    Tracks (Call.run (.dealloc e l) (a, live)).1 (Call.run (.dealloc e l) (a, live)).2 := by
  have g := h.geometry
  obtain ⟨hpos, -, hend⟩ := h.inside e he
  have hs : (e.start : Int) < a.blockCount.toInt := by omega
  have hrun_end : (e.start : Int) + (a.blocksFor l.size).toInt ≤ a.blockCount.toInt := by omega
  obtain ⟨bytes, hm, hrun⟩ := Arena.dealloc_spec g hs hrun_end
  rw [hl] at hm
  simp only [Call.run, Extent.addr, hrun]
  exact (h.perm (List.perm_cons_erase he)).erase hl hm

theorem run_relocate (h : Tracks a live) {e : Extent} {l : Layout} (he : e ∈ live)
    (hl : (a.blocksFor l.size).toInt = e.count) :
    Tracks (Call.run (.relocate e l) (a, live)).1 (Call.run (.relocate e l) (a, live)).2 := by
  have g := h.geometry
  obtain ⟨hpos, hlt, hend⟩ := h.inside e he
  have hs : (e.start : Int) < a.blockCount.toInt := by omega
  have hrun_end : (e.start : Int) + (a.blocksFor l.size).toInt ≤ a.blockCount.toInt := by omega
  obtain ⟨bytes₁, hm₁, hcases⟩ := Arena.relocate_spec g hs hrun_end (by omega)
  rw [hl] at hm₁
  -- relocation frees the run first: the arena with it freed and uncounted tracks the others,
  -- and the run's blocks are free there
  have h₁ := (h.perm (List.perm_cons_erase he)).erase hl hm₁
  have hfree₁ : ∀ b, e.Covers b → Arena.usedBit { a with bytes := bytes₁ } b = false := by
    intro b hb
    unfold Extent.Covers at hb
    rw [hm₁.usedBit_eq b, if_pos (by omega)]
  rcases hcases with ⟨bytes₂, -, hm₂, hrun⟩ | ⟨t, bytes₂, hfit, -, hm₂, hrun⟩
  · -- no fit: the run is marked used where it was, and counted again
    rw [hl] at hm₂
    have h₂ := h₁.insert hl hpos hlt hend hfree₁ (hm₂.congr rfl rfl)
    simp only [Int64.sub_add_cancel] at h₂
    simp only [Call.run, Extent.addr, hrun]
    exact h₂.perm (List.perm_cons_erase he).symm
  · -- the first fit becomes the run
    have hfit_end : (t : Int) + (a.blocksFor l.size).toInt ≤ a.blockCount.toInt := hfit.1
    have hcast : (((a.blocksFor l.size).toInt.toNat : Nat) : Int) = (a.blocksFor l.size).toInt :=
      Int.toNat_of_nonneg (by omega)
    have h₂ : Tracks _ (⟨t, (a.blocksFor l.size).toInt.toNat⟩ :: live.erase e) := h₁.insert hcast.symm
      (by dsimp only; omega) (by dsimp only; omega) (by dsimp only; omega)
      (fun b hb => by
        unfold Extent.Covers at hb
        dsimp only at hb
        exact hfit.2.2 b (by omega) (by omega))
      (by dsimp only; rw [hcast]; exact hm₂.congr rfl rfl)
    simp only [Int64.sub_add_cancel] at h₂
    simp only [Call.run, Extent.addr, hrun]
    rw [g.runAt_blockOffset (by omega) (by omega) (by omega)]
    exact h₂

theorem blockCount_room (h : Tracks a live) : 2 * a.blockCount.toInt ≤ 2 ^ 63 := by
  have hle := h.geometry.blockCount_le_bufferSize
  have hheap : Arena.heapLimit.toInt = 1099511627776 := rfl
  have := h.bounded
  omega

theorem runAt_self (h : Tracks a live) {e : Extent} (he : e ∈ live) {c : Int64}
    (hc : c.toInt = e.count) : a.runAt (a.blockOffset (Int64.ofNat e.start)) (c * a.blockSize) = e := by
  obtain ⟨hpos, hlt, hend⟩ := h.inside e he
  rw [h.geometry.runAt_blockOffset (by omega) (by omega) (by omega), hc, Int.toNat_natCast]

theorem run_growInPlace (h : Tracks a live) {e : Extent} {old new : Layout} (he : e ∈ live)
    (hold : (a.blocksFor old.size).toInt = e.count) :
    Tracks (Call.run (.growInPlace e old new) (a, live)).1
      (Call.run (.growInPlace e old new) (a, live)).2 := by
  have g := h.geometry
  obtain ⟨hpos, hlt, hend⟩ := h.inside e he
  have hs : (e.start : Int) < a.blockCount.toInt := by omega
  have hrun_end : (e.start : Int) + (a.blocksFor old.size).toInt ≤ a.blockCount.toInt := by omega
  have h' := h.perm (List.perm_cons_erase he)
  rcases Arena.growInPlace_spec g h.blockCount_room hs hrun_end (by omega) with
    ⟨-, hrun⟩ | hrun | ⟨hlt', hnew, hnend, hfree, bytes, hm, hrun⟩
  · -- no more blocks asked for: the run stays as it is
    simp only [Call.run, Extent.addr]
    rw [hrun]
    simp only [h.runAt_self he hold]
    exact h'
  · simp only [Call.run, Extent.addr, hrun]
    exact h
  · -- the run grows into the free blocks after it
    simp only [Call.run, Extent.addr, hrun]
    rw [g.runAt_blockOffset hs (by omega) (by omega)]
    refine h'.resize rfl (by dsimp only; omega) (by dsimp only; omega) (by dsimp only; omega)
      (fun b hb hnot => ?_) hm.size_eq (fun b => ?_) ?_
    · dsimp only [Extent.Covers] at hb hnot
      exact hfree b (by omega) (by omega)
    · rw [hm.usedBit_eq b]
      by_cases hgain : (e.start : Int) + (a.blocksFor old.size).toInt ≤ b ∧
          (b : Int) < e.start + (a.blocksFor old.size).toInt +
            ((a.blocksFor new.size).toInt - (a.blocksFor old.size).toInt)
      · have hcov : Extent.Covers ⟨e.start, (a.blocksFor new.size).toInt.toNat⟩ b := by
          dsimp only [Extent.Covers]
          omega
        rw [if_pos hgain, if_pos hcov]
      · rw [if_neg hgain]
        by_cases hcov : Extent.Covers ⟨e.start, (a.blocksFor new.size).toInt.toNat⟩ b
        · -- a block the run already had
          have hin : e.Covers b := by
            dsimp only [Extent.Covers] at hcov ⊢
            omega
          rw [if_pos hcov, h'.usedBit_of_covers List.mem_cons_self hin]
        · have hout : ¬e.Covers b := by
            dsimp only [Extent.Covers] at hcov ⊢
            omega
          rw [if_neg hcov, if_neg hout]
    · show (a.usedBlocks + (a.blocksFor new.size - a.blocksFor old.size)).toInt = _
      rw [Int64.toInt_add, Int64.toInt_sub, Int.add_bmod_bmod]
      congr 1
      dsimp only
      omega

theorem run_shrinkInPlace (h : Tracks a live) {e : Extent} {old new : Layout} (he : e ∈ live)
    (hold : (a.blocksFor old.size).toInt = e.count) (hnew : a.Sized new) :
    Tracks (Call.run (.shrinkInPlace e old new) (a, live)).1
      (Call.run (.shrinkInPlace e old new) (a, live)).2 := by
  have g := h.geometry
  obtain ⟨hpos, hlt, hend⟩ := h.inside e he
  have hs : (e.start : Int) < a.blockCount.toInt := by omega
  have hrun_end : (e.start : Int) + (a.blocksFor old.size).toInt ≤ a.blockCount.toInt := by omega
  have hnpos := Arena.one_le_blocksFor g.blockSize_pos hnew.1 hnew.2
  have h' := h.perm (List.perm_cons_erase he)
  have hnew0 : 0 ≤ (a.blocksFor new.size).toInt := by omega
  rcases Arena.shrinkInPlace_spec g hs hrun_end hnew0 with
    ⟨-, hrun⟩ | ⟨hlt', bytes, hm, hrun⟩
  · -- no fewer blocks asked for: the run stays as it is
    simp only [Call.run, Extent.addr, hrun, h.runAt_self he hold]
    exact h'
  · -- the run gives back its tail
    simp only [Call.run, Extent.addr, hrun]
    rw [g.runAt_blockOffset hs (by omega) (by omega)]
    refine h'.resize rfl (by dsimp only; omega) (by dsimp only; omega) (by dsimp only; omega)
      (fun b hb hnot => ?_) hm.size_eq (fun b => ?_) ?_
    · exfalso
      dsimp only [Extent.Covers] at hb hnot
      omega
    · rw [hm.usedBit_eq b]
      by_cases hkeep : Extent.Covers ⟨e.start, (a.blocksFor new.size).toInt.toNat⟩ b
      · -- a block the run keeps
        have hin : e.Covers b := by
          dsimp only [Extent.Covers] at hkeep ⊢
          omega
        have hnot : ¬((e.start : Int) + (a.blocksFor new.size).toInt ≤ b ∧
            (b : Int) < e.start + (a.blocksFor new.size).toInt +
              ((a.blocksFor old.size).toInt - (a.blocksFor new.size).toInt)) := by
          dsimp only [Extent.Covers] at hkeep
          omega
        rw [if_neg hnot, if_pos hkeep, h'.usedBit_of_covers List.mem_cons_self hin]
      · by_cases hlose : e.Covers b
        · have hgive : (e.start : Int) + (a.blocksFor new.size).toInt ≤ b ∧
              (b : Int) < e.start + (a.blocksFor new.size).toInt +
                ((a.blocksFor old.size).toInt - (a.blocksFor new.size).toInt) := by
            dsimp only [Extent.Covers] at hkeep hlose
            omega
          rw [if_pos hgive, if_neg hkeep, if_pos hlose]
        · have hnot : ¬((e.start : Int) + (a.blocksFor new.size).toInt ≤ b ∧
              (b : Int) < e.start + (a.blocksFor new.size).toInt +
                ((a.blocksFor old.size).toInt - (a.blocksFor new.size).toInt)) := by
            dsimp only [Extent.Covers] at hlose
            omega
          rw [if_neg hnot, if_neg hkeep, if_neg hlose]
    · show (a.usedBlocks - (a.blocksFor old.size - a.blocksFor new.size)).toInt = _
      rw [Int64.toInt_sub, Int64.toInt_sub, Int.sub_bmod_bmod]
      congr 1
      dsimp only
      omega

theorem run_write (h : Tracks a live) {off : Nat} {data : ByteArray}
    (hw : (Call.write off data).Allowed a live) :
    Tracks (Call.run (.write off data) (a, live)).1 (Call.run (.write off data) (a, live)).2 := by
  obtain ⟨e, he, hlo, -⟩ := hw
  obtain ⟨hpos, -, hend⟩ := h.inside e he
  -- the write starts at or after the run's first block, so past the whole table
  have htable : (a.tableLength : Int) ≤ (e.addr a).toInt :=
    h.geometry.tableLength_le_blockOffset (by omega)
  exact h.withBytes (Buffer.size_write _ _ _)
    fun k hk => Buffer.byteAt_write_of_lt _ _ (by omega)

theorem step (h : Tracks a live) {c : Call} (hc : c.Allowed a live) :
    Tracks (c.run (a, live)).1 (c.run (a, live)).2 := by
  cases c with
  | alloc l => exact h.run_alloc hc
  | dealloc e l => exact h.run_dealloc hc.1 hc.2
  | relocate e l => exact h.run_relocate hc.1 hc.2
  | growInPlace e old new => exact h.run_growInPlace hc.1 hc.2.1
  | shrinkInPlace e old new => exact h.run_shrinkInPlace hc.1 hc.2.1 hc.2.2
  | write off data => exact h.run_write hc

/-- A sequence of calls that keep the client's promises keeps the table tracking the live
    runs. -/
theorem runAll : ∀ (cs : List Call) (st : Arena × List Extent), Tracks st.1 st.2 →
    Call.Obeyed cs st → Tracks (Call.runAll cs st).1 (Call.runAll cs st).2
  | [], _, h, _ => h
  | _ :: cs, (_, _), h, ⟨hc, hcs⟩ => runAll cs _ (h.step hc) hcs

/-- A new arena over a buffer that holds the bytes it needs and that the heap could serve
    tracks no runs: its table is clear and its counters are zero. -/
theorem of_create {size bs n : Int64} {align : UInt64} {a : Arena}
    (hcreate : Arena.create true size align bs n = .ok a)
    (hneed : Arena.exactNeed bs.toInt n.toInt ≤ size.toInt)
    (hheap : size.toInt ≤ Arena.heapLimit.toInt) : Tracks a [] := by
  obtain ⟨g, hcount, hused, hbits⟩ := Arena.geometry_of_create hcreate hneed
  have hsize : a.bufferSize = size := by
    obtain ⟨-, -, -, -, rfl⟩ := Arena.create_inv hcreate
    rfl
  refine ⟨g, hsize ▸ hheap, by simp, List.Pairwise.nil, fun b _ => ?_, ?_, ?_⟩
  · simp [hbits b]
  · rw [hcount]
    rfl
  · rw [hused]
    rfl

end Tracks

/-- From a new arena, along every sequence of calls that keeps the client's promises, the
    occupancy table and the counters account for exactly the live runs: the runs lie in the
    arena, each has fewer blocks than the arena, no two share a block, a block's bit is set
    exactly when a live run covers it, and the counters are the number of live runs and their
    blocks. The buffer holds the bytes the arena needs, as the caller of `create` promises, and
    no more than the heap serves. -/
theorem tracks_live_runs {size bs n : Int64} {align : UInt64} {a : Arena}
    (hcreate : Arena.create true size align bs n = .ok a)
    (hneed : Arena.exactNeed bs.toInt n.toInt ≤ size.toInt)
    (hheap : size.toInt ≤ Arena.heapLimit.toInt)
    (cs : List Call) (hcs : Call.Obeyed cs (a, [])) :
    Tracks (Call.runAll cs (a, [])).1 (Call.runAll cs (a, [])).2 :=
  Tracks.runAll cs (a, []) (Tracks.of_create hcreate hneed hheap) hcs

/-- Eight blocks of eight bytes over a buffer of 72 bytes, after one request for 16 bytes. -/
theorem tracks_live_runs_after_alloc :
    Tracks (Call.runAll [.alloc ⟨16, 8⟩]
        ({ blockSize := 8, blockCount := 8, managementBlocks := 1, bufferSize := 72,
           bufferAlign := 8, bytes := Buffer.zeros 72, tableLength := 8 }, [])).1
      (Call.runAll [.alloc ⟨16, 8⟩]
        ({ blockSize := 8, blockCount := 8, managementBlocks := 1, bufferSize := 72,
           bufferAlign := 8, bytes := Buffer.zeros 72, tableLength := 8 }, [])).2 :=
  tracks_live_runs (rfl : Arena.create true 72 8 8 8 = .ok
      { blockSize := 8, blockCount := 8, managementBlocks := 1, bufferSize := 72,
        bufferAlign := 8, bytes := Buffer.zeros 72, tableLength := 8 })
    (by decide) (by decide) _ (by simp only [Call.Obeyed, Call.Allowed, Arena.Sized]; decide)

end BlockArena
