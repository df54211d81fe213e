import Mathlib.Data.Int.Order.Basic
import Mathlib.Data.List.Induction
import Mathlib.Data.List.Perm.Basic
import BlockArena.Session.Stateless

/-! # Detailed statistics are what they have seen

A detailed-statistics object is built by adding free runs one at a time, merging other objects
and clearing, on wrapping words, with a smallest run that starts at `maxInt` and a largest that
starts at `0`. Its value is always a function of two lists: the base figures added since the
base counts were last reset, and the free runs added since the last full clear
(`DetailedStats.ofLedger`).

* Adding a run, merging an object and both clears act on that view as on a ledger
  (`ofLedger_addFreeRun`, `merge_ofLedger`): merging is the image of joining two ledgers. The
  largest run can join another ledger's because it never drops below its start `0`
  (`foldl_max_nonneg`).
* So folding any steps into a cleared object gives the object of the steps since the resets
  (`foldStats_eq_ofLedger`), by induction over the steps from the last one.
* A ledger's object does not depend on the order of its entries (`ofLedger_perm`,
  `Stats.total_perm`), so reordering the steps between two resets changes nothing, and merging a
  cleared object, the object of the empty ledger, is the identity on either side
  (`detailed_statistics_merge_homomorphically`).
-/

set_option autoImplicit false

namespace BlockArena

/-! ## Order and sums on words -/

namespace Word

theorem toInt_min (a b : Int64) : (min a b).toInt = min a.toInt b.toInt := by
  show (if a ≤ b then a else b).toInt = _
  split
  · rename_i h
    rw [Int64.le_iff_toInt_le] at h
    omega
  · rename_i h
    rw [Int64.le_iff_toInt_le] at h
    omega

theorem toInt_max (a b : Int64) : (max a b).toInt = max a.toInt b.toInt := by
  show (if a ≤ b then b else a).toInt = _
  split
  · rename_i h
    rw [Int64.le_iff_toInt_le] at h
    omega
  · rename_i h
    rw [Int64.le_iff_toInt_le] at h
    omega

theorem min_maxInt (a : Int64) : min a maxInt = a :=
  Int64.toInt_inj.1 (by rw [toInt_min]; exact min_eq_left (Int64.toInt_le a))

theorem max_zero_of_nonneg {a : Int64} (h : 0 ≤ a) : max a 0 = a := by
  rw [Int64.le_iff_toInt_le, Int64.toInt_zero] at h
  apply Int64.toInt_inj.1
  rw [toInt_max, Int64.toInt_zero, max_eq_left h]

instance maxAssociative : Std.Associative (max : Int64 → Int64 → Int64) :=
  ⟨fun a b c => Int64.toInt_inj.1 (by simp only [toInt_max]; omega)⟩

instance maxCommutative : Std.Commutative (max : Int64 → Int64 → Int64) :=
  ⟨fun a b => Int64.toInt_inj.1 (by simp only [toInt_max]; omega)⟩

end Word

namespace Stats

theorem add_assoc (s t u : Stats) : (s.add t).add u = s.add (t.add u) := by
  simp only [add, Int64.add_assoc]

theorem add_comm (s t : Stats) : s.add t = t.add s := by
  simp only [add, Int64.add_comm]

instance : Std.Associative Stats.add := ⟨add_assoc⟩

instance : Std.Commutative Stats.add := ⟨add_comm⟩

@[simp] theorem add_empty (s : Stats) : s.add {} = s := by
  simp only [add, Int64.add_zero]

@[simp] theorem empty_add (s : Stats) : ({} : Stats).add s = s := by
  simp only [add, Int64.zero_add]

/-- The field-by-field wrapping sum of a list of counts. -/
def total (figures : List Stats) : Stats := figures.foldl add {}

@[simp] theorem total_nil : total [] = {} := rfl

theorem total_perm {l₁ l₂ : List Stats} (h : l₁.Perm l₂) : total l₁ = total l₂ :=
  List.Perm.foldl_op_eq h

end Stats

/-! ## The ledger of an object -/

namespace DetailedStats

/-- The object that has counted the base figures `base` and the free runs `runs`: as many runs
    as the list holds, the least of them and `maxInt`, the greatest of them and `0`. -/
def ofLedger (base : Stats) (runs : List Int64) : DetailedStats where
  base := base
  freeRunCount := Int64.ofNat runs.length
  freeRunMin := runs.foldl min Word.maxInt
  freeRunMax := runs.foldl max 0

theorem cleared_eq_ofLedger : cleared = ofLedger {} [] := rfl

theorem foldl_min_eq (runs : List Int64) (x : Int64) :
    runs.foldl min x = min x (runs.foldl min Word.maxInt) := by
  conv_lhs => rw [← Word.min_maxInt x]
  exact List.foldl_assoc

theorem foldl_max_eq (runs : List Int64) {x : Int64} (hx : 0 ≤ x) :
    runs.foldl max x = max x (runs.foldl max 0) := by
  conv_lhs => rw [← Word.max_zero_of_nonneg hx]
  exact List.foldl_assoc

/-- The largest run never drops below its start `0`. -/
theorem foldl_max_nonneg (runs : List Int64) : 0 ≤ runs.foldl max 0 := by
  have h := foldl_max_eq runs (Int64.le_refl 0)
  rw [Int64.le_iff_toInt_le, h, Word.toInt_max]
  omega

theorem ofLedger_addFreeRun (base : Stats) (runs : List Int64) (bytes : Int64) :
    (ofLedger base runs).addFreeRun bytes = ofLedger base (runs ++ [bytes]) := by
  simp only [addFreeRun, ofLedger, List.length_append, List.length_singleton, Int64.ofNat_add,
    List.foldl_append, List.foldl_cons, List.foldl_nil]
  rfl

theorem foldl_addFreeRun (base : Stats) :
    ∀ (runs more : List Int64),
      more.foldl addFreeRun (ofLedger base runs) = ofLedger base (runs ++ more)
  | runs, [] => by simp
  | runs, bytes :: more => by
    rw [List.foldl_cons, ofLedger_addFreeRun, foldl_addFreeRun base (runs ++ [bytes]) more,
      List.append_assoc, List.singleton_append]

theorem ofRuns_eq_ofLedger (base : Stats) (runs : List Int64) :
    ofRuns base runs = ofLedger base runs := by
  rw [ofRuns, show ({ base := base } : DetailedStats) = ofLedger base [] from rfl,
    foldl_addFreeRun, List.nil_append]

/-- Merging the objects of two ledgers gives the object of the joined ledger. -/
theorem merge_ofLedger (b₁ b₂ : Stats) (r₁ r₂ : List Int64) :
    (ofLedger b₁ r₁).merge (ofLedger b₂ r₂) = ofLedger (b₁.add b₂) (r₁ ++ r₂) := by
  simp only [merge, ofLedger, List.length_append, Int64.ofNat_add, List.foldl_append,
    foldl_min_eq r₂ (r₁.foldl min Word.maxInt), foldl_max_eq r₂ (foldl_max_nonneg r₁)]

theorem clearBase_ofLedger (base : Stats) (runs : List Int64) :
    (ofLedger base runs).clearBase = ofLedger {} runs := rfl

/-- The object of a ledger does not depend on the order of its runs. -/
theorem ofLedger_perm (base : Stats) {r r' : List Int64} (h : r.Perm r') :
    ofLedger base r = ofLedger base r' := by
  simp only [ofLedger, h.length_eq, List.Perm.foldl_op_eq h]

end DetailedStats

/-! ## The steps since the resets -/

namespace Session

open DetailedStats

/-- The free runs a step adds. -/
def StatsStep.runs : StatsStep → List Int64
  | .freeRun bytes => [bytes]
  | .add _ runs => runs
  | _ => []

/-- The base figures a step adds. -/
def StatsStep.figures : StatsStep → List Stats
  | .add base _ => [base]
  | _ => []

/-- The step clears everything. -/
def StatsStep.clears : StatsStep → Bool
  | .clear => true
  | _ => false

/-- The step resets the base counts, as both clears do. -/
def StatsStep.resets : StatsStep → Bool
  | .clear | .clearBase => true
  | _ => false

theorem StatsStep.resets_of_clears {st : StatsStep} (h : st.clears = true) : st.resets = true := by
  cases st <;> simp_all [clears, resets]

/-- The steps after the last one that `p` picks out; all of them when there is none. -/
def afterLast (p : StatsStep → Bool) (steps : List StatsStep) : List StatsStep :=
  (steps.reverse.takeWhile fun st => !p st).reverse

/-- The free runs counted since the last full clear, in order. -/
def runsSinceClear (steps : List StatsStep) : List Int64 :=
  (afterLast StatsStep.clears steps).flatMap StatsStep.runs

/-- The base figures added since the base counts were last reset, in order. -/
def figuresSinceReset (steps : List StatsStep) : List Stats :=
  (afterLast StatsStep.resets steps).flatMap StatsStep.figures

theorem afterLast_concat (p : StatsStep → Bool) (steps : List StatsStep) (st : StatsStep) :
    afterLast p (steps ++ [st]) = if p st then [] else afterLast p steps ++ [st] := by
  unfold afterLast
  cases h : p st <;> simp [h]

/-- The steps after the last pick of a joined list: those of the second part if it has a pick,
    else those of the first part followed by the whole second part. -/
theorem afterLast_append (p : StatsStep → Bool) (steps : List StatsStep) :
    ∀ more : List StatsStep, afterLast p (steps ++ more) =
      if more.any p then afterLast p more else afterLast p steps ++ more := by
  intro more
  induction more using List.reverseRecOn with
  | nil => simp
  | append_singleton more st ih =>
    rw [← List.append_assoc, afterLast_concat, afterLast_concat, ih]
    cases hst : p st
    · cases hmore : more.any p <;> simp [hst, hmore]
    · simp [hst]

theorem afterLast_perm (p : StatsStep → Bool) (pre post : List StatsStep)
    {mid mid' : List StatsStep} (hmid : ∀ st ∈ mid, p st = false) (h : mid.Perm mid') :
    (afterLast p (pre ++ mid ++ post)).Perm (afterLast p (pre ++ mid' ++ post)) := by
  have hmid' : ∀ st ∈ mid', p st = false := fun st hst => hmid st (h.symm.subset hst)
  have hnone : ∀ l : List StatsStep, (∀ st ∈ l, p st = false) → l.any p = false := by
    intro l hl
    simpa using hl
  rw [List.append_assoc, List.append_assoc, afterLast_append p pre, afterLast_append p pre,
    List.any_append, List.any_append, hnone mid hmid, hnone mid' hmid', Bool.false_or]
  cases hpost : post.any p
  · -- no pick after `pre`: everything from `pre`'s last pick on is kept
    simp only [Bool.false_eq_true, ite_false]
    exact (h.append_right post).append_left _
  · -- a pick after the reordered steps: only what follows it is kept
    simp only [ite_true]
    rw [afterLast_append p mid, afterLast_append p mid', if_pos hpost, if_pos hpost]

theorem runsSinceClear_perm (pre post : List StatsStep) {mid mid' : List StatsStep}
    (hmid : ∀ st ∈ mid, st.resets = false) (h : mid.Perm mid') :
    (runsSinceClear (pre ++ mid ++ post)).Perm (runsSinceClear (pre ++ mid' ++ post)) := by
  have hclear : ∀ st ∈ mid, st.clears = false := fun st hst => by
    cases hc : st.clears
    · rfl
    · have hr := hmid st hst
      rw [StatsStep.resets_of_clears hc] at hr
      exact hr
  exact (afterLast_perm _ pre post hclear h).flatMap_right StatsStep.runs

theorem figuresSinceReset_perm (pre post : List StatsStep) {mid mid' : List StatsStep}
    (hmid : ∀ st ∈ mid, st.resets = false) (h : mid.Perm mid') :
    (figuresSinceReset (pre ++ mid ++ post)).Perm (figuresSinceReset (pre ++ mid' ++ post)) :=
  (afterLast_perm _ pre post hmid h).flatMap_right StatsStep.figures

theorem foldStats_concat (steps : List StatsStep) (st : StatsStep) :
    foldStats (steps ++ [st]) = st.apply (foldStats steps) := by
  simp only [foldStats, List.foldl_append, List.foldl_cons, List.foldl_nil]

/-- Folding steps into a cleared object gives the object of the figures added since the last
    reset and the runs added since the last clear. -/
theorem foldStats_eq_ofLedger (steps : List StatsStep) :
    foldStats steps =
      ofLedger (Stats.total (figuresSinceReset steps)) (runsSinceClear steps) := by
  induction steps using List.reverseRecOn with
  | nil => rfl
  | append_singleton steps st ih =>
    rw [foldStats_concat, ih]
    simp only [figuresSinceReset, runsSinceClear, afterLast_concat]
    cases st with
    | freeRun bytes =>
      simp [StatsStep.apply, StatsStep.clears, StatsStep.resets, StatsStep.runs,
        StatsStep.figures, ofLedger_addFreeRun]
    | add base runs =>
      simp [StatsStep.apply, StatsStep.clears, StatsStep.resets, StatsStep.runs,
        StatsStep.figures, ofRuns_eq_ofLedger, merge_ofLedger, Stats.total]
    | clear => rfl
    | clearBase =>
      simp only [StatsStep.apply, StatsStep.clears, StatsStep.resets, Bool.false_eq_true,
        ite_true, ite_false, List.flatMap_nil, List.flatMap_append, StatsStep.runs,
        List.flatMap_singleton, List.append_nil, Stats.total_nil, clearBase_ofLedger]
    | unknown name =>
      simp [StatsStep.apply, StatsStep.clears, StatsStep.resets, StatsStep.runs,
        StatsStep.figures]

end Session

open Session DetailedStats in
/-- Detailed statistics merge as a monoid homomorphism. Fold any steps into a cleared object:
    it has counted the free runs added since the last full clear, directly or inside merged
    objects, with the least of them and `maxInt` as its smallest run and the greatest of them
    and `0` as its largest, and its base counts are the wrapping sums of the figures added since
    they were last reset. So reordering the steps between two resets changes nothing, and
    merging a cleared object, on either side, changes nothing. -/
theorem detailed_statistics_merge_homomorphically :
    (∀ steps : List StatsStep,
      (foldStats steps).freeRunCount = Int64.ofNat (runsSinceClear steps).length ∧
      (foldStats steps).freeRunMin = (runsSinceClear steps).foldl min Word.maxInt ∧
      (foldStats steps).freeRunMax = (runsSinceClear steps).foldl max 0 ∧
      (foldStats steps).base = Stats.total (figuresSinceReset steps)) ∧
    (∀ pre mid mid' post : List StatsStep, (∀ st ∈ mid, st.resets = false) → mid.Perm mid' →
      foldStats (pre ++ mid ++ post) = foldStats (pre ++ mid' ++ post)) ∧
    (∀ steps : List StatsStep,
      (foldStats steps).merge cleared = foldStats steps ∧
        cleared.merge (foldStats steps) = foldStats steps) := by
  refine ⟨fun steps => ?_, fun pre mid mid' post hmid h => ?_, fun steps => ?_⟩
  · rw [foldStats_eq_ofLedger]
    exact ⟨rfl, rfl, rfl, rfl⟩
  · rw [foldStats_eq_ofLedger, foldStats_eq_ofLedger,
      Stats.total_perm (figuresSinceReset_perm pre post hmid h)]
    exact ofLedger_perm _ (runsSinceClear_perm pre post hmid h)
  · rw [foldStats_eq_ofLedger, cleared_eq_ofLedger, merge_ofLedger, merge_ofLedger,
      Stats.add_empty, Stats.empty_add, List.append_nil, List.nil_append]
    exact ⟨rfl, rfl⟩

open Session in
/-- A run of five, a reset of the base counts, then a merged object and a run of `-2` bytes:
    the two steps between the reset and the last run may come in either order. -/
theorem merged_steps_commute :
    (∀ st ∈ [StatsStep.add ⟨1, 1, 64, 32⟩ [7, 3], .freeRun (-2)], st.resets = false) ∧
      [StatsStep.add ⟨1, 1, 64, 32⟩ [7, 3], .freeRun (-2)].Perm
        [.freeRun (-2), .add ⟨1, 1, 64, 32⟩ [7, 3]] ∧
      foldStats ([.freeRun 5, .clearBase] ++ [.add ⟨1, 1, 64, 32⟩ [7, 3], .freeRun (-2)] ++
          [.freeRun 9]) =
        foldStats ([.freeRun 5, .clearBase] ++ [.freeRun (-2), .add ⟨1, 1, 64, 32⟩ [7, 3]] ++
          [.freeRun 9]) :=
  ⟨by decide, List.Perm.swap _ _ [],
    detailed_statistics_merge_homomorphically.2.1 _ _ _ _ (by decide) (List.Perm.swap _ _ [])⟩

end BlockArena
