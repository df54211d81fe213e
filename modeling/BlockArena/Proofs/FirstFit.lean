import BlockArena.Proofs.Geometry

/-! # The first-fit search

`firstFit count align` tries the blocks from `0` upward and stops at the first block that
starts a run of `count` free blocks inside the arena at an address aligned to `align`
(`Arena.FitsAt`). On an arena with its geometry and a positive count, the search never faults,
and its answer is exactly that block, or none when no block fits (`firstFit_spec`).

The loop variable runs over every block up to the last start that can still fit; the
induction is on the number of starts left.
-/

set_option autoImplicit false

namespace BlockArena

namespace Arena

/-- Block `t` starts a run of `count` free blocks that ends inside the arena, at an address
    aligned to `align`. -/
def FitsAt (a : Arena) (count : Int64) (align : UInt64) (t : Nat) : Prop :=
  t + count.toInt ≤ a.blockCount.toInt ∧ a.blockAligned (Int64.ofNat t) align = true ∧
    ∀ b : Nat, t ≤ b → b < t + count.toInt → a.usedBit b = false

/-- What the search answers from start `s` on: the first fitting block at or after `s`, or
    none when no block there fits. -/
def FirstFrom (a : Arena) (count : Int64) (align : UInt64) (s : Nat) : Option Int64 → Prop
  | some t => ∃ u : Nat, t.toInt = u ∧ s ≤ u ∧ a.FitsAt count align u ∧
      ∀ v, s ≤ v → v < u → ¬a.FitsAt count align v
  | none => ∀ v, s ≤ v → ¬a.FitsAt count align v

theorem FirstFrom.of_succ {a : Arena} {count : Int64} {align : UInt64} {s : Nat}
    {r : Option Int64} (hs : ¬a.FitsAt count align s) (h : a.FirstFrom count align (s + 1) r) :
    a.FirstFrom count align s r := by
  cases r with
  | none =>
    intro v hv
    rcases Nat.eq_or_lt_of_le hv with rfl | hlt
    · exact hs
    · exact h v hlt
  | some t =>
    obtain ⟨u, ht, hu, hfit, hmin⟩ := h
    refine ⟨u, ht, by omega, hfit, fun v hv hvu => ?_⟩
    rcases Nat.eq_or_lt_of_le hv with rfl | hlt
    · exact hs
    · exact hmin v hlt hvu

variable {a : Arena} (g : a.Geometry) {count : Int64} (align : UInt64)
include g

/-- A start whose run ends at most one block past the arena, and the end of that run, are exact
    as words. -/
theorem start_end_toInt (hc : 0 < count.toInt) {s : Nat}
    (hs : (s : Int) + count.toInt ≤ a.blockCount.toInt + 1) :
    (Int64.ofNat s).toInt = s ∧ (Int64.ofNat s + count).toInt = s + count.toInt := by
  have hbig := g.blockCount_lt
  have hstart : (Int64.ofNat s).toInt = s := g.toInt_ofNat (by omega)
  refine ⟨hstart, ?_⟩
  rw [Word.toInt_add_of_fits, hstart]
  rw [hstart]
  exact ⟨by omega, by omega⟩

theorem firstFitFrom_spec (hc : 0 < count.toInt) : ∀ (d s : Nat),
    (a.blockCount.toInt + 1 - count.toInt - s).toNat = d →
    (s : Int) + count.toInt ≤ a.blockCount.toInt + 1 →
    ∃ r, a.firstFitFrom count align s = .ok r ∧ a.FirstFrom count align s r := by
  intro d
  induction d with
  | zero =>
    intro s hd hs
    -- the last start: its run ends one block past the arena
    have hlast : (s : Int) + count.toInt = a.blockCount.toInt + 1 := by omega
    refine ⟨none, ?_, fun v hv hfit => by have := hfit.1; omega⟩
    have hbig := g.blockCount_lt
    obtain ⟨hstart, hsum⟩ := start_end_toInt g hc hs
    rw [firstFitFrom, dif_neg (by omega), if_pos (Int64.lt_iff_toInt_lt.2 (by omega))]
  | succ d ih =>
    intro s hd hs
    have hbig := g.blockCount_lt
    obtain ⟨hstart, hsum⟩ := start_end_toInt g hc hs
    have hfits : ¬a.blockCount < Int64.ofNat s + count := by
      rw [Int64.lt_iff_toInt_lt, hsum]
      omega
    obtain ⟨r, hr, hfirst⟩ := ih (s + 1) (by omega) (by omega)
    by_cases halign : a.blockAligned (Int64.ofNat s) align = true
    · -- an aligned start: the answer depends on whether its run is free
      obtain ⟨free, hfree, hiff⟩ := runFree_spec (Int64.ofNat s) count a
        (by omega) (by have := g.table_covers; omega) g.table_le_size g.table_lt
      cases free with
      | true =>
        refine ⟨some (Int64.ofNat s), ?_, s, hstart, le_rfl, ⟨by omega, halign, ?_⟩, ?_⟩
        · rw [firstFitFrom, dif_neg (by omega), if_neg hfits, if_neg (by simp [halign]), hfree]
        · intro b h1 h2
          exact hiff.1 rfl b (by omega) (by omega)
        · intro v hv hvu
          omega
      | false =>
        refine ⟨r, ?_, FirstFrom.of_succ ?_ hfirst⟩
        · rw [firstFitFrom, dif_neg (by omega), if_neg hfits, if_neg (by simp [halign]), hfree]
          exact hr
        · rintro ⟨-, -, hall⟩
          have := hiff.2 (fun b h1 h2 => hall b (by omega) (by omega))
          exact Bool.false_ne_true this
    · refine ⟨r, ?_, FirstFrom.of_succ (fun hfit => halign hfit.2.1) hfirst⟩
      rw [firstFitFrom, dif_neg (by omega), if_neg hfits, if_pos (by simpa using halign)]
      exact hr

/-- On an arena with its geometry, the search for a positive count no larger than the arena
    never faults and answers the first block that fits, or none when none does. -/
theorem firstFit_spec (hc : 0 < count.toInt) (hcn : count.toInt ≤ a.blockCount.toInt) :
    ∃ r, a.firstFit count align = .ok r ∧ a.FirstFrom count align 0 r :=
  firstFitFrom_spec g align hc _ 0 rfl (by omega)

end Arena

end BlockArena
