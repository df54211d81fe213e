import BlockArena.Proofs.Packing
import BlockArena.Proofs.Isolation.Handles
import BlockArena.Proofs.Serving

/-! # What the reports of an arena show

The reports of an arena come from one walk over its table (`Arena.runs`) that lists the maximal
runs of blocks in address order (`MaximalRuns`; step lemma `MaximalRuns.pushBlock_reverse`, run
lemma `MaximalRuns.foldl_pushBlock`). From maximality, the blocks of the runs of one occupancy
are exactly the blocks of that occupancy (`MaximalRuns.count_filter`). So on an arena that tracks
its live runs (`Tracks`), the detailed statistics count one free run per maximal free run and the
free runs hold the arena's free bytes; the runs of the map follow one another from the first
block past the table and add up to the arena's bytes (`Arena.Reported`); and the map of a
well-formed block storage lists every live handle once, by address, inside a used run
(`BlockStore.Mapped`).

The tracking hypothesis is needed: a request whose block count wraps leaves the free bytes the
statistics report apart from the free runs (`wrapped_request_skews_free_bytes`).
-/

set_option autoImplicit false

namespace BlockArena

/-! ## Runs that tile a stretch of blocks -/

namespace Run

/-- The runs follow one another from block `s` up to block `n`, each with at least one block. -/
def Tiles : List Run → Nat → Nat → Prop
  | [], s, n => s = n
  | r :: rs, s, n => r.first = s ∧ 0 < r.count ∧ Tiles rs (s + r.count) n

@[simp] theorem tiles_nil {s n : Nat} : Tiles [] s n ↔ s = n := Iff.rfl

@[simp] theorem tiles_cons {r : Run} {rs : List Run} {s n : Nat} :
    Tiles (r :: rs) s n ↔ r.first = s ∧ 0 < r.count ∧ Tiles rs (s + r.count) n := Iff.rfl

theorem tiles_append : ∀ (l₁ : List Run) {l₂ : List Run} {s n : Nat},
    Tiles (l₁ ++ l₂) s n ↔ ∃ m, Tiles l₁ s m ∧ Tiles l₂ m n
  | [], _, _, _ => by simp
  | r :: l₁, l₂, s, n => by
    rw [List.cons_append, tiles_cons, tiles_append l₁]
    constructor
    · rintro ⟨hf, hc, m, h₁, h₂⟩
      exact ⟨m, ⟨hf, hc, h₁⟩, h₂⟩
    · rintro ⟨m, ⟨hf, hc, h₁⟩, h₂⟩
      exact ⟨hf, hc, m, h₁, h₂⟩

theorem Tiles.sum_count : ∀ {rs : List Run} {s n : Nat}, Tiles rs s n →
    s + (rs.map count).sum = n
  | [], _, _, h => by simpa using h
  | r :: rs, s, n, ⟨_, _, h⟩ => by
    have := Tiles.sum_count h
    rw [List.map_cons, List.sum_cons]
    omega

theorem Tiles.within : ∀ {rs : List Run} {s n : Nat}, Tiles rs s n →
    ∀ r ∈ rs, s ≤ r.first ∧ r.first + r.count ≤ n
  | [], _, _, _, _, hr => absurd hr List.not_mem_nil
  | r :: rs, s, n, ⟨hf, _, h⟩, r', hr' => by
    have hsum := Tiles.sum_count h
    rcases List.mem_cons.1 hr' with rfl | hr'
    · omega
    · have := Tiles.within h r' hr'
      omega

theorem Tiles.length_le : ∀ {rs : List Run} {s n : Nat}, Tiles rs s n → s + rs.length ≤ n
  | [], _, _, h => by simp [Tiles] at h; simp [h]
  | _ :: _, _, _, ⟨_, hc, h⟩ => by
    have := Tiles.length_le h
    rw [List.length_cons]
    omega

end Run

/-! ## Maximal runs -/

/-- The runs `rs` are, in address order, the maximal runs of blocks `[s, n)` under the occupancy
    `used`: they tile the blocks, every block of a run has the run's occupancy, and neighbouring
    runs differ, so no run could be longer. -/
structure MaximalRuns (used : Nat → Bool) (s n : Nat) (rs : List Run) : Prop where
  tiles : Run.Tiles rs s n
  uniform : ∀ r ∈ rs, ∀ b, r.first ≤ b → b < r.first + r.count → used b = !r.free
  alternate : rs.IsChain fun r r' => r.free ≠ r'.free

namespace MaximalRuns

variable {used : Nat → Bool}

theorem nil (s : Nat) : MaximalRuns used s s [] :=
  ⟨rfl, fun _ hr => absurd hr List.not_mem_nil, .nil⟩

theorem push {s k : Nat} {l : List Run} (h : MaximalRuns used s k l)
    (hlast : ∀ r ∈ l.getLast?, r.free ≠ !used k) :
    MaximalRuns used s (k + 1) (l ++ [⟨k, 1, !used k⟩]) where
  tiles := (Run.tiles_append l).2 ⟨k, h.tiles, by simp⟩
  uniform r hr b hb hb' := by
    rcases List.mem_append.1 hr with hr | hr
    · exact h.uniform r hr b hb hb'
    · rw [List.mem_singleton] at hr
      subst hr
      have hbk : b = k := by simp only at hb hb'; omega
      simp [hbk]
  alternate := List.isChain_append.2 ⟨h.alternate, .singleton _, fun r hr r' hr' => by
    rw [List.head?_cons, Option.mem_some_iff] at hr'
    subst hr'
    exact hlast r hr⟩

theorem extend {s k : Nat} {l : List Run} {r : Run} (h : MaximalRuns used s k (l ++ [r]))
    (hk : used k = !r.free) :
    MaximalRuns used s (k + 1) (l ++ [{ r with count := r.count + 1 }]) := by
  obtain ⟨m, hl, hf, -, hend⟩ : ∃ m, Run.Tiles l s m ∧ r.first = m ∧ 0 < r.count ∧
      m + r.count = k := by
    obtain ⟨m, hl, hr⟩ := (Run.tiles_append l).1 h.tiles
    simp only [Run.tiles_cons, Run.tiles_nil] at hr
    exact ⟨m, hl, hr.1, hr.2.1, hr.2.2⟩
  obtain ⟨hchain, -, hjoin⟩ := List.isChain_append.1 h.alternate
  refine ⟨(Run.tiles_append l).2 ⟨m, hl, by simp only [Run.tiles_cons, Run.tiles_nil]; omega⟩,
    fun r' hr' b hb hb' => ?_, List.isChain_append.2 ⟨hchain, .singleton _, ?_⟩⟩
  · rcases List.mem_append.1 hr' with hr' | hr'
    · exact h.uniform r' (List.mem_append_left _ hr') b hb hb'
    · rw [List.mem_singleton] at hr'
      subst hr'
      by_cases hold : b < r.first + r.count
      · exact h.uniform r (List.mem_append_right _ (List.mem_singleton_self r)) b hb hold
      · have hbk : b = k := by simp only at hb'; omega
        rw [hbk, hk]
  · intro x hx y hy
    rw [List.head?_cons, Option.mem_some_iff] at hy
    subst hy
    exact hjoin x hx r rfl

/-- One step of the walk keeps the runs, latest first, maximal: the walk's step lemma. -/
theorem pushBlock_reverse {k : Nat} {L : List Run} (h : MaximalRuns used 0 k L.reverse) :
    MaximalRuns used 0 (k + 1) (Arena.pushBlock L k (used k)).reverse := by
  cases L with
  | nil => simpa [Arena.pushBlock] using h.push (by simp)
  | cons r rest =>
    rw [List.reverse_cons] at h
    simp only [Arena.pushBlock]
    by_cases hr : (r.free == !used k) = true
    · -- the block has the latest run's occupancy
      rw [if_pos hr, List.reverse_cons]
      exact h.extend (by rw [beq_iff_eq] at hr; rw [hr, Bool.not_not])
    · -- the block starts a run
      rw [if_neg hr, List.reverse_cons, List.reverse_cons]
      refine h.push fun x hx => ?_
      rw [List.getLast?_append, List.getLast?_singleton, Option.some_or,
        Option.mem_some_iff] at hx
      subst hx
      simpa using hr

/-- The walk over blocks `0 … k - 1` lists their maximal runs: the walk's run lemma. -/
theorem foldl_pushBlock (used : Nat → Bool) : ∀ k : Nat,
    MaximalRuns used 0 k ((List.range k).foldl (fun rs b => Arena.pushBlock rs b (used b)) []).reverse
  | 0 => nil 0
  | k + 1 => by
    rw [List.range_succ, List.foldl_append, List.foldl_cons, List.foldl_nil]
    exact pushBlock_reverse (foldl_pushBlock used k)

theorem tail {s n : Nat} {r : Run} {rs : List Run} (h : MaximalRuns used s n (r :: rs)) :
    MaximalRuns used (s + r.count) n rs :=
  ⟨h.tiles.2.2, fun r' hr' => h.uniform r' (List.mem_cons_of_mem r hr'), h.alternate.tail⟩

/-- A stretch `[lo, hi)` of blocks of one occupancy lies inside one maximal run of that
    occupancy. -/
theorem covering {s n : Nat} {rs : List Run} (h : MaximalRuns used s n rs) {lo hi : Nat}
    {v : Bool} (hlo : s ≤ lo) (hlt : lo < hi) (hhi : hi ≤ n)
    (hv : ∀ b, lo ≤ b → b < hi → used b = v) :
    ∃ r ∈ rs, r.free = !v ∧ r.first ≤ lo ∧ hi ≤ r.first + r.count := by
  induction rs generalizing s with
  | nil =>
    have : s = n := h.tiles
    omega
  | cons r rest ih =>
    obtain ⟨hf, hc, hrest⟩ := h.tiles
    by_cases hin : lo < s + r.count
    · -- the first run holds `lo`, so it has the stretch's occupancy
      have hfree : r.free = !v := by
        have := h.uniform r List.mem_cons_self lo (by omega) (by omega)
        rw [hv lo le_rfl hlt] at this
        rw [this, Bool.not_not]
      by_cases hend : hi ≤ s + r.count
      · exact ⟨r, List.mem_cons_self, hfree, by omega, by omega⟩
      · -- the next run would start inside the stretch with the same occupancy
        cases rest with
        | nil =>
          have : s + r.count = n := hrest
          omega
        | cons r' rest' =>
          have hf' : r'.first = s + r.count := hrest.1
          have hr' := h.uniform r' (List.mem_cons_of_mem r List.mem_cons_self) r'.first le_rfl
            (by have := hrest.2.1; omega)
          rw [hv r'.first (by omega) (by omega)] at hr'
          have hne : r.free ≠ r'.free := (List.isChain_cons_cons.1 h.alternate).1
          exact absurd (by rw [hfree, hr', Bool.not_not]) hne
    · obtain ⟨r', hr', hfree, hlo', hhi'⟩ := ih h.tail (by omega)
      exact ⟨r', List.mem_cons_of_mem r hr', hfree, hlo', hhi'⟩

/-- The runs of one occupancy hold exactly the blocks of that occupancy. -/
theorem count_filter {s n : Nat} {rs : List Run} (h : MaximalRuns used s n rs) (v : Bool) :
    ((rs.filter fun r => r.free == !v).map Run.count).sum =
      ((Finset.Ico s n).filter (used · = v)).card := by
  induction rs generalizing s with
  | nil =>
    have : s = n := h.tiles
    simp [this]
  | cons r rest ih =>
    obtain ⟨hf, -, hrest⟩ := h.tiles
    have hsum := hrest.sum_count
    rw [← Finset.Ico_union_Ico_eq_Ico (show s ≤ s + r.count by omega)
        (show s + r.count ≤ n by omega), Finset.filter_union,
      Finset.card_union_of_disjoint
        (Finset.disjoint_filter_filter (Finset.Ico_disjoint_Ico_consecutive _ _ _)),
      ← ih h.tail, List.filter_cons]
    have hrun : ∀ b ∈ Finset.Ico s (s + r.count), used b = !r.free := fun b hb => by
      rw [Finset.mem_Ico] at hb
      exact h.uniform r List.mem_cons_self b (by omega) (by omega)
    by_cases hv : r.free = !v
    · have hall : (Finset.Ico s (s + r.count)).filter (used · = v) = Finset.Ico s (s + r.count) :=
        Finset.filter_true_of_mem fun b hb => by rw [hrun b hb, hv, Bool.not_not]
      rw [if_pos (by simp [hv]), hall, Nat.card_Ico, List.map_cons, List.sum_cons]
      omega
    · have hnone : (Finset.Ico s (s + r.count)).filter (used · = v) = ∅ :=
        Finset.filter_false_of_mem fun b hb => by
          rw [hrun b hb]
          cases v <;> cases hr : r.free <;> simp_all
      rw [if_neg (by simpa using hv), hnone, Finset.card_empty, Nat.zero_add]

theorem free_count {s n : Nat} {rs : List Run} (h : MaximalRuns used s n rs) :
    ((rs.filter (·.free)).map Run.count).sum = ((Finset.Ico s n).filter (used · = false)).card := by
  simpa using h.count_filter false

theorem used_count {s n : Nat} {rs : List Run} (h : MaximalRuns used s n rs) :
    ((rs.filter (!·.free)).map Run.count).sum = ((Finset.Ico s n).filter (used · = true)).card := by
  simpa using h.count_filter true

end MaximalRuns

/-! ## The walk of an arena -/

namespace Arena

theorem runs_maximal {a : Arena} (hcov : a.blockCount.toNatClampNeg ≤ a.tableLength * 8) :
    ∃ rs, a.runs = .ok rs ∧ MaximalRuns a.usedBit 0 a.blockCount.toNatClampNeg rs := by
  refine ⟨_, ?_, MaximalRuns.foldl_pushBlock a.usedBit _⟩
  unfold runs
  rw [if_neg (by omega)]

theorem mapText_of_runs {a : Arena} {rs : List Run} (h : a.runs = .ok rs) :
    ∃ pre mid : String, a.mapText = .ok (pre ++ ",\"TotalBytes\":" ++
      toString a.stats.arenaBytes ++ ",\"UnusedBytes\":" ++ toString a.stats.freeBytes ++ mid ++
      ",\"Runs\":[" ++ ",".intercalate (rs.map a.runText) ++ "]\x7d") := by
  refine ⟨"\x7b\"AllocID\":" ++ toString a.allocId ++ ",\"BlockSize\":" ++ toString a.blockSize ++
    ",\"ManagementBlocks\":" ++ toString a.managementBlocks,
    ",\"Allocations\":" ++ toString a.stats.allocationCount, ?_⟩
  unfold mapText
  rw [h]
  simp only [Except.map, String.append_assoc]

namespace Geometry

variable {a : Arena} (g : a.Geometry)
include g

theorem blockCount_toNat : (a.blockCount.toNatClampNeg : Int) = a.blockCount.toInt := by
  rw [← Int64.toNat_toInt]
  have := g.blockCount_pos
  omega

theorem runBytes_toInt {r : Run} (hr : (r.count : Int) ≤ a.blockCount.toInt) :
    (a.runBytes r).toInt = r.count * a.blockSize.toInt := by
  have hc := g.toInt_ofNat hr
  unfold runBytes
  rw [g.blocks_toInt (by rw [hc]; omega) (by rw [hc]; exact hr), hc]

theorem runOffset_toInt {r : Run} (hr : (r.first : Int) ≤ a.blockCount.toInt) :
    (a.runOffset r).toInt = (a.managementBlocks.toInt + r.first) * a.blockSize.toInt := by
  have hc := g.toInt_ofNat hr
  unfold runOffset
  rw [g.blockOffset_toInt (by rw [hc]; omega) (by rw [hc]; exact hr), hc]

theorem sum_runBytes : ∀ {l : List Run}, (∀ r ∈ l, (r.count : Int) ≤ a.blockCount.toInt) →
    (l.map fun r => (a.runBytes r).toInt).sum = ((l.map Run.count).sum : Int) * a.blockSize.toInt
  | [], _ => by simp
  | r :: l, hl => by
    rw [List.map_cons, List.sum_cons, g.runBytes_toInt (hl r List.mem_cons_self),
      sum_runBytes fun r' hr' => hl r' (List.mem_cons_of_mem r hr'), List.map_cons,
      List.sum_cons, Nat.cast_add, Int.add_mul]

theorem contiguous {n : Nat} (hn : (n : Int) ≤ a.blockCount.toInt) :
    ∀ {rs : List Run} {s : Nat}, Run.Tiles rs s n →
      rs.IsChain fun r r' => (a.runOffset r').toInt = (a.runOffset r).toInt + (a.runBytes r).toInt
  | [], _, _ => .nil
  | [_], _, _ => .singleton _
  | r :: r' :: rest, s, ⟨hf, hc, hrest⟩ => by
    have hwithin := hrest.within r' List.mem_cons_self
    refine .cons_cons ?_ (contiguous hn hrest)
    have hf' : r'.first = s + r.count := hrest.1
    rw [g.runOffset_toInt (by omega), g.runOffset_toInt (by omega), g.runBytes_toInt (by omega),
      hf', hf, ← Int.add_mul, Nat.cast_add, Int.add_assoc]

theorem arenaBytes_toInt : a.stats.arenaBytes.toInt = a.blockCount.toInt * a.blockSize.toInt :=
  g.blocks_toInt g.blockCount_pos.le le_rfl

section Walk

variable {rs : List Run} (hmax : MaximalRuns a.usedBit 0 a.blockCount.toNatClampNeg rs)
include hmax

theorem count_le_of_walk : ∀ r ∈ rs, (r.count : Int) ≤ a.blockCount.toInt := fun r hr => by
  have := hmax.tiles.within r hr
  have := g.blockCount_toNat
  omega

theorem walk_bytes : (rs.map fun r => (a.runBytes r).toInt).sum = a.stats.arenaBytes.toInt := by
  have hsum := hmax.tiles.sum_count
  have hn := g.blockCount_toNat
  rw [g.sum_runBytes (g.count_le_of_walk hmax), g.arenaBytes_toInt]
  congr 1
  omega

theorem walk_first_offset : rs.head?.map (fun r => (a.runOffset r).toInt) =
    some (a.managementBlocks.toInt * a.blockSize.toInt) := by
  have hn := g.blockCount_toNat
  cases rs with
  | nil =>
    have : 0 = a.blockCount.toNatClampNeg := hmax.tiles
    have := g.blockCount_pos
    omega
  | cons r rest =>
    have hf : r.first = 0 := hmax.tiles.1
    rw [List.head?_cons, Option.map_some, g.runOffset_toInt (by omega), hf, Nat.cast_zero,
      Int.add_zero]

theorem walk_freeRunCount : (DetailedStats.ofRuns a.stats
    ((rs.filter (·.free)).map a.runBytes)).freeRunCount.toInt = (rs.filter (·.free)).length := by
  have hn := g.blockCount_toNat
  have hlen := hmax.tiles.length_le
  have hfl := List.length_filter_le (·.free) rs
  rw [DetailedStats.freeRunCount_ofRuns, List.length_map,
    g.toInt_ofNat (by omega)]

end Walk

end Geometry

end Arena

/-! ## The reports of a tracked arena -/

/-- What the reports of an arena show, for the runs `rs` its walk lists. -/
structure Arena.Reported (a : Arena) (rs : List Run) : Prop where
  /-- The walk answers with `rs`. -/
  runs_eq : a.runs = .ok rs
  /-- They are the maximal runs of the blocks, in address order. -/
  maximal : MaximalRuns a.usedBit 0 a.blockCount.toNatClampNeg rs
  /-- The detailed statistics add the free runs, one per maximal free run. -/
  detailed : a.detailedStats =
    .ok (DetailedStats.ofRuns a.stats ((rs.filter (·.free)).map a.runBytes))
  freeRunCount : (DetailedStats.ofRuns a.stats
    ((rs.filter (·.free)).map a.runBytes)).freeRunCount.toInt = (rs.filter (·.free)).length
  /-- The free runs hold the free bytes, which are `(blockCount - usedBlocks) * blockSize`. -/
  free_bytes : ((rs.filter (·.free)).map fun r => (a.runBytes r).toInt).sum =
    a.stats.freeBytes.toInt
  freeBytes_eq : a.stats.freeBytes.toInt =
    (a.blockCount.toInt - a.usedBlocks.toInt) * a.blockSize.toInt
  /-- The first run starts at the first block past the table. -/
  first_offset : rs.head?.map (fun r => (a.runOffset r).toInt) =
    some (a.managementBlocks.toInt * a.blockSize.toInt)
  /-- Each run starts where the one before it ends. -/
  contiguous : rs.IsChain fun r r' =>
    (a.runOffset r').toInt = (a.runOffset r).toInt + (a.runBytes r).toInt
  /-- The runs' sizes add up to the arena's bytes. -/
  total : (rs.map fun r => (a.runBytes r).toInt).sum = a.stats.arenaBytes.toInt
  /-- The used runs' sizes add up to the bytes in use: the arena's bytes less the unused. -/
  used_bytes : ((rs.filter (!·.free)).map fun r => (a.runBytes r).toInt).sum =
    a.stats.arenaBytes.toInt - a.stats.freeBytes.toInt
  /-- The map shows the arena's bytes as its total, the free bytes as unused, and these runs. -/
  map : ∃ pre mid : String, a.mapText = .ok (pre ++ ",\"TotalBytes\":" ++
    toString a.stats.arenaBytes ++ ",\"UnusedBytes\":" ++ toString a.stats.freeBytes ++ mid ++
    ",\"Runs\":[" ++ ",".intercalate (rs.map a.runText) ++ "]\x7d")

namespace Tracks

variable {a : Arena} {live : List Extent} (ht : Tracks a live)
include ht

theorem usedBlocks_card : a.usedBlocks.toInt =
    ((Finset.Ico 0 a.blockCount.toNatClampNeg).filter (a.usedBit · = true)).card := by
  have hn := ht.geometry.blockCount_toNat
  have hfilter : (Finset.Ico 0 a.blockCount.toNatClampNeg).filter (a.usedBit · = true) =
      (Finset.range a.blockCount.toNatClampNeg).filter (Occupied live) := by
    rw [← Finset.range_eq_Ico]
    exact Finset.filter_congr fun b hb => ht.bits b (by rw [Finset.mem_range] at hb; omega)
  rw [hfilter, card_occupied _ live ht.apart fun e he => by have := (ht.inside e he).2.2; omega,
    ht.usedBlocks_eq]

theorem usedBlocks_bounds : 0 ≤ a.usedBlocks.toInt ∧ a.usedBlocks.toInt ≤ a.blockCount.toInt := by
  rw [ht.usedBlocks_eq]
  exact ⟨by omega, ht.sum_le⟩

theorem allocationBytes_toInt :
    a.stats.allocationBytes.toInt = a.usedBlocks.toInt * a.blockSize.toInt :=
  ht.geometry.blocks_toInt ht.usedBlocks_bounds.1 ht.usedBlocks_bounds.2

theorem freeBytes_toInt :
    a.stats.freeBytes.toInt = (a.blockCount.toInt - a.usedBlocks.toInt) * a.blockSize.toInt := by
  have g := ht.geometry
  have harena := g.arenaBytes_toInt
  have halloc := ht.allocationBytes_toInt
  obtain ⟨hu0, hun⟩ := ht.usedBlocks_bounds
  have hle : a.usedBlocks.toInt * a.blockSize.toInt ≤ a.blockCount.toInt * a.blockSize.toInt :=
    Int.mul_le_mul_of_nonneg_right hun g.blockSize_pos.le
  have hnn : 0 ≤ a.usedBlocks.toInt * a.blockSize.toInt := Int.mul_nonneg hu0 g.blockSize_pos.le
  have hlt : a.blockCount.toInt * a.blockSize.toInt < 2 ^ 63 := by
    rw [← harena]
    exact Int64.toInt_lt _
  unfold Stats.freeBytes
  rw [Word.toInt_sub_of_fits (by rw [harena, halloc]; constructor <;> omega), harena, halloc,
    Int.sub_mul]

section Walk

variable {rs : List Run} (hmax : MaximalRuns a.usedBit 0 a.blockCount.toNatClampNeg rs)
include hmax

theorem walk_free_bytes :
    ((rs.filter (·.free)).map fun r => (a.runBytes r).toInt).sum = a.stats.freeBytes.toInt := by
  have g := ht.geometry
  have hn := g.blockCount_toNat
  -- the free and the used blocks split the blocks, and the counter counts the used ones
  have hsplit : ((Finset.Ico 0 a.blockCount.toNatClampNeg).filter (a.usedBit · = true)).card +
      ((Finset.Ico 0 a.blockCount.toNatClampNeg).filter fun b => ¬a.usedBit b = true).card =
      (Finset.Ico 0 a.blockCount.toNatClampNeg).card :=
    Finset.card_filter_add_card_filter_not _
  simp only [Bool.not_eq_true] at hsplit
  rw [Nat.card_Ico] at hsplit
  have hcard := ht.usedBlocks_card
  rw [g.sum_runBytes fun r hr => g.count_le_of_walk hmax r (List.mem_filter.1 hr).1,
    hmax.free_count, ht.freeBytes_toInt]
  congr 1
  omega

theorem walk_used_bytes : ((rs.filter (!·.free)).map fun r => (a.runBytes r).toInt).sum =
    a.stats.arenaBytes.toInt - a.stats.freeBytes.toInt := by
  have g := ht.geometry
  rw [g.sum_runBytes fun r hr => g.count_le_of_walk hmax r (List.mem_filter.1 hr).1,
    hmax.used_count, ← ht.usedBlocks_card, ht.freeBytes_toInt, g.arenaBytes_toInt]
  linarith

end Walk

theorem reported : ∃ rs, a.Reported rs := by
  have g := ht.geometry
  have hn := g.blockCount_toNat
  obtain ⟨rs, hruns, hmax⟩ := Arena.runs_maximal
    (show a.blockCount.toNatClampNeg ≤ a.tableLength * 8 by have := g.table_covers; omega)
  exact ⟨rs, hruns, hmax, by rw [Arena.detailedStats, hruns]; rfl, g.walk_freeRunCount hmax,
    ht.walk_free_bytes hmax, ht.freeBytes_toInt, g.walk_first_offset hmax,
    g.contiguous (by omega) hmax.tiles, g.walk_bytes hmax, ht.walk_used_bytes hmax,
    Arena.mapText_of_runs hruns⟩

end Tracks

/-! ## The map of a block storage -/

namespace BlockStore

/-- What the map of a block storage shows, for the runs `rs` of its arena's walk. -/
structure Mapped (s : BlockStore) (rs : List Run) : Prop where
  /-- The arena's part of the map, with its runs. -/
  arena : s.arena.Reported rs
  /-- Every live handle is listed, once. -/
  handles : (byAddress s).Perm s.entries
  /-- By increasing address. -/
  increasing : (byAddress s).Pairwise fun x y => x.2.offset.toInt < y.2.offset.toInt
  /-- Each handle's bytes lie inside one used run of the arena's map. -/
  inside : ∀ he ∈ byAddress s, ∃ r ∈ rs, r.free = false ∧
    (s.arena.runOffset r).toInt ≤ he.2.offset.toInt ∧
    he.2.offset.toInt + he.2.size.toInt ≤ (s.arena.runOffset r).toInt + (s.arena.runBytes r).toInt
  /-- The map lists the handles in that order, then the arena's map. -/
  map : ∃ t, s.arena.mapText = .ok t ∧ s.mapText = .ok ("\x7b\"Handles\":[" ++
    ",".intercalate ((byAddress s).map handleText) ++ "],\"Arena\":" ++ t ++ "\x7d")

namespace WellFormed

variable {s : BlockStore} (hw : s.WellFormed)
include hw

theorem size_pos {h : UInt64} {e : BlockEntry} (hmem : (h, e) ∈ s.entries) : 0 < e.size.toInt := by
  rw [(hw.span_eq hmem).2]
  exact Int.mul_pos (by exact_mod_cast (hw.run_inside hmem).1) hw.geometry.blockSize_pos

theorem offsets_ne : s.entries.Pairwise fun x y => x.2.offset.toInt ≠ y.2.offset.toInt := by
  have hkeys : s.entries.Pairwise fun x y => x.1 ≠ y.1 := List.pairwise_map.1 hw.keys_nodup
  refine hkeys.imp_of_mem fun {x y} hx hy hne => ?_
  have hx' := hw.size_pos hx
  have hy' := hw.size_pos hy
  rcases hw.spans_apart hx hy hne with hxy | hyx <;> omega

theorem byAddress_increasing :
    (byAddress s).Pairwise fun x y => x.2.offset.toInt < y.2.offset.toInt := by
  have hne : (byAddress s).Pairwise fun x y => x.2.offset.toInt ≠ y.2.offset.toInt :=
    ((byAddress_perm s).pairwise_iff fun h => Ne.symm h).2 hw.offsets_ne
  exact ((byAddress_sorted s).and hne).imp fun h => lt_of_le_of_ne h.1 h.2

theorem inside_used_run {rs : List Run}
    (hrs : MaximalRuns s.arena.usedBit 0 s.arena.blockCount.toNatClampNeg rs) {h : UInt64}
    {e : BlockEntry} (hmem : (h, e) ∈ s.entries) :
    ∃ r ∈ rs, r.free = false ∧ (s.arena.runOffset r).toInt ≤ e.offset.toInt ∧
      e.offset.toInt + e.size.toInt ≤ (s.arena.runOffset r).toInt + (s.arena.runBytes r).toInt := by
  have g := hw.geometry
  have hn := g.blockCount_toNat
  have hlive := mem_liveRuns hmem
  obtain ⟨hoff, hsize⟩ := hw.span_eq hmem
  set x := s.arena.runAt e.offset e.size
  obtain ⟨hpos, -, hend⟩ := hw.tracks.inside x hlive
  -- every block of the entry's run is used, so one maximal used run holds them all
  obtain ⟨r, hr, hfree, hlo, hhi⟩ := hrs.covering (Nat.zero_le _)
    (show x.start < x.start + x.count by omega)
    (show x.start + x.count ≤ s.arena.blockCount.toNatClampNeg by omega)
    fun b hb hb' => hw.tracks.usedBit_of_covers hlive ⟨hb, hb'⟩
  have hwithin := hrs.tiles.within r hr
  have hB := g.blockSize_pos.le
  refine ⟨r, hr, hfree, ?_, ?_⟩
  · rw [hoff, hw.tracks.addr_toInt hlive, g.runOffset_toInt (by omega)]
    exact Int.mul_le_mul_of_nonneg_right (by omega) hB
  · have hspan : (s.arena.managementBlocks.toInt + x.start) * s.arena.blockSize.toInt +
        x.count * s.arena.blockSize.toInt ≤
        (s.arena.managementBlocks.toInt + (r.first + r.count)) * s.arena.blockSize.toInt :=
      span_le_of_le hB (by omega)
    rw [hoff, hsize, hw.tracks.addr_toInt hlive, g.runOffset_toInt (by omega),
      g.runBytes_toInt (by omega)]
    linarith

theorem mapped : ∃ rs, s.Mapped rs := by
  obtain ⟨rs, hrep⟩ := hw.tracks.reported
  obtain ⟨_, _, hmap⟩ := hrep.map
  refine ⟨rs, hrep, byAddress_perm s, hw.byAddress_increasing, fun he hm => ?_,
    ⟨_, hmap, by unfold BlockStore.mapText; rw [hmap]; rfl⟩⟩
  exact hw.inside_used_run hrep.maximal ((byAddress_perm s).mem_iff.1 hm)

end WellFormed

end BlockStore

/-- The reports agree with the table. On an arena that tracks its live runs, the walk lists the
    maximal runs of the blocks in address order: they tile the blocks, each is of one occupancy,
    and neighbours differ. The detailed statistics count one free run per maximal free run, and
    the free runs hold the free bytes, `(blockCount - usedBlocks) * blockSize`. The map's runs
    start at the first block past the table and follow one another, alternating free and used,
    their sizes add up to the total and the used ones to the total less the unused bytes. On a
    well-formed block storage, the map lists every live handle once by increasing address, each
    inside a used run of the arena's map. -/
theorem reports_agree_with_table (a : Arena) (live : List Extent) (ht : Tracks a live)
    (s : BlockStore) (hw : s.WellFormed) :
    (∃ rs, a.Reported rs) ∧ ∃ rs, s.Mapped rs :=
  ⟨ht.reported, hw.mapped⟩

/-- A new arena of eight blocks of eight bytes, and a new block storage, report their runs. -/
theorem reports_of_new_arena_and_store :
    ∃ (a : Arena) (s : BlockStore), Arena.create true 72 8 8 8 = .ok a ∧
      BlockStore.create (.pinned false false) 8 8 0 = .ok s ∧ (∃ rs, a.Reported rs) ∧
        ∃ rs, s.Mapped rs := by
  obtain ⟨a, ha⟩ : ∃ a, Arena.create true 72 8 8 8 = .ok a := ⟨_, rfl⟩
  obtain ⟨s, hs⟩ : ∃ s, BlockStore.create (.pinned false false) 8 8 0 = .ok s := ⟨_, rfl⟩
  have ht : Tracks a [] := Tracks.of_create ha (by decide) (by decide)
  have hw : s.WellFormed := (BlockStore.WellFormed.of_create hs (by cases hs; decide)
    (Parent.pinned_servesAtMost _ _)).1
  exact ⟨a, s, ha, hs, reports_agree_with_table a [] ht s hw⟩

set_option maxRecDepth 20000 in
/-- With 64-byte blocks, a request for the largest size wraps its block count below zero and
    marks no block: the walk still finds one free run of all 1024 bytes, but the statistics count
    the free bytes from the wrapped counter. -/
theorem wrapped_request_skews_free_bytes :
    ∃ a a' : Arena, Arena.create true 1088 8 64 16 = .ok a ∧
      (Arena.alloc ⟨Word.maxInt, 1⟩).run a = .ok (64, -9223372036854775744) a' ∧
      a'.runs = .ok [⟨0, 16, true⟩] ∧ a'.runBytes ⟨0, 16, true⟩ = 1024 ∧
      a'.stats.freeBytes = -9223372036854774848 := by
  obtain ⟨a, ha⟩ : ∃ a, Arena.create true 1088 8 64 16 = .ok a := ⟨_, rfl⟩
  refine ⟨a, { a with allocationCount := 1, usedBlocks := -144115188075855871 }, ha, ?_, ?_,
    ?_, ?_⟩ <;> cases ha
  · rw [Arena.alloc_of_blocksFor_nonpos rfl (by decide) (by decide) (by decide)]
    rfl
  all_goals rfl

end BlockArena
