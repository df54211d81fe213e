import BlockArena.Arena.Report
import BlockArena.Proofs.Word

/-! # The occupancy table, block by block

The table is read and written a byte at a time through masks (`spanMask`), while every
statement about an arena speaks of single blocks: block `b` is bit `7 - b % 8` of byte `b / 8`
(`Arena.usedBit`). This file connects the two. Its main statements say that, on a table that
lies inside the buffer,

* `markRun first count used` succeeds, sets the bit of every block of `[first, first + count)`
  to `used`, keeps every other bit, and changes no byte past the table (`markRun_spec`);
* `runFree first count` succeeds and answers whether every block of that run is free
  (`runFree_spec`), and `runSet first count` whether every one is in use (`runSet_spec`).

Both follow the byte loop of the definitions: one lemma per byte (`usedBit_markByte`), then an
induction on the count that is left. The two reading loops differ only in the test they apply to
a byte, so the induction is done once for any test (`ScansBy.spec`). Together with the bit that
`blockUsed` reads, this is `run_primitives_read_blocks`.
-/

set_option autoImplicit false

namespace BlockArena

namespace Arena

/-! ## Bits of a byte -/

theorem blockMask_toNat : ∀ q : Fin 8, ((0x80 : UInt8) >>> q.val.toUInt8).toNat = 2 ^ (7 - q.val) := by
  decide

theorem and_blockMask (x : UInt8) {q : Nat} (hq : q < 8) :
    ((x &&& ((0x80 : UInt8) >>> q.toUInt8)) != 0) = x.toNat.testBit (7 - q) := by
  have hm := blockMask_toNat ⟨q, hq⟩
  have key : (x &&& ((0x80 : UInt8) >>> q.toUInt8)).toNat =
      (x.toNat.testBit (7 - q)).toNat * 2 ^ (7 - q) := by
    rw [UInt8.toNat_and, hm, Nat.and_two_pow]
  cases h : x.toNat.testBit (7 - q)
  · simp only [h, Bool.toNat_false, Nat.zero_mul] at key
    simp [← UInt8.toNat_inj, key]
  · simp only [h, Bool.toNat_true, Nat.one_mul] at key
    simp [← UInt8.toNat_inj, key]

theorem testBit_toNat (x : UInt8) (k : Nat) : x.toNat.testBit k = x.toBitVec.getLsbD k := by
  rw [← BitVec.testBit_toNat]
  rfl

theorem testBit_or (x y : UInt8) (k : Nat) :
    (x ||| y).toNat.testBit k = (x.toNat.testBit k || y.toNat.testBit k) := by
  simp [testBit_toNat]

theorem testBit_and_not (x y : UInt8) {k : Nat} (hk : k < 8) :
    (x &&& ~~~y).toNat.testBit k = (x.toNat.testBit k && !y.toNat.testBit k) := by
  simp only [testBit_toNat, UInt8.toBitVec_and, UInt8.toBitVec_not, BitVec.getLsbD_and,
    BitVec.getLsbD_not, hk, decide_true, Bool.true_and]

theorem spanMask_testBit : ∀ (j : Fin 8) (n : Fin 9) (q : Fin 8), j.val + n.val ≤ 8 →
    (spanMask j n.val).toNat.testBit (7 - q.val) =
      (decide (j.val ≤ q.val) && decide (q.val < j.val + n.val)) := by
  decide

/-! ## The bit of a block -/

theorem usedBit_eq_testBit (a : Arena) (b : Nat) :
    a.usedBit b = (Buffer.byteAt a.bytes (b / 8)).toNat.testBit (7 - b % 8) := by
  unfold usedBit
  exact and_blockMask _ (Nat.mod_lt _ (by decide))

theorem usedBit_congr {a a' : Arena} (h : a'.bytes = a.bytes) (b : Nat) :
    a'.usedBit b = a.usedBit b := by
  unfold usedBit
  rw [h]

theorem size_setByte (bytes : ByteArray) (i : Nat) (v : UInt8) :
    (Buffer.setByte bytes i v).size = bytes.size := by
  unfold Buffer.setByte
  split
  · simp [← ByteArray.size_data]
  · rfl

theorem byteAt_setByte (bytes : ByteArray) {i : Nat} (v : UInt8) (hi : i < bytes.size) (k : Nat) :
    Buffer.byteAt (Buffer.setByte bytes i v) k = if k = i then v else Buffer.byteAt bytes k := by
  unfold Buffer.setByte Buffer.byteAt
  rw [dif_pos hi]
  simp only [ByteArray.getElem_eq_getElem_data, ByteArray.data_set, ← ByteArray.size_data,
    Array.size_set, Array.getElem_set]
  by_cases hk : k = i
  · subst hk
    simp [hi]
  · simp [hk, Ne.symm hk]

theorem tableByte_of_lt {a : Arena} {i : Int64} (h0 : 0 ≤ i.toInt) (hi : i.toInt < a.tableLength) :
    a.tableByte i = .ok (Buffer.byteAt a.bytes i.toNatClampNeg) := by
  unfold tableByte
  simp [h0, hi]

theorem toNatClampNeg_cast {i : Int64} (h0 : 0 ≤ i.toInt) : (i.toNatClampNeg : Int) = i.toInt := by
  show (i.toInt.toNat : Int) = i.toInt
  omega

/-- The byte after table byte `i` is byte `i + 1`: the index does not wrap, since the table is
    shorter than `2^63` bytes. -/
theorem next_index_toInt {a : Arena} {i : Int64} (h0 : 0 ≤ i.toInt) (hi : i.toInt < a.tableLength)
    (hlen : a.tableLength < 2 ^ 63) : (i + 1).toInt = i.toInt + 1 := by
  rw [Word.toInt_add_of_fits] <;> simp only [Int64.toInt_one]
  exact ⟨by omega, by omega⟩

/-! ## One byte of a run -/

/-- The new value of a table byte when `n` blocks from place `j` are marked. -/
def markByte (byte : UInt8) (j : Fin 8) (n : Nat) (used : Bool) : UInt8 :=
  if used then byte ||| spanMask j n else byte &&& ~~~spanMask j n

/-- Marking `n` blocks from place `j` of table byte `i` sets exactly those blocks' bits. -/
theorem usedBit_markByte (a : Arena) {i : Nat} (j : Fin 8) (n : Nat) (used : Bool)
    (hi : i < a.bytes.size) (hn : j.val + n ≤ 8) (b : Nat) :
    usedBit { a with bytes := Buffer.setByte a.bytes i (markByte (Buffer.byteAt a.bytes i) j n used) } b =
      if 8 * i + j.val ≤ b ∧ b < 8 * i + j.val + n then used else a.usedBit b := by
  rw [usedBit_eq_testBit, usedBit_eq_testBit]
  simp only [byteAt_setByte _ _ hi]
  have hq : b % 8 < 8 := Nat.mod_lt _ (by decide)
  split
  · rename_i hb
    -- within byte `i`, block `b` is in the run exactly when its place is in the mask
    have hmask : (spanMask j n).toNat.testBit (7 - b % 8) =
        decide (8 * i + j.val ≤ b ∧ b < 8 * i + j.val + n) := by
      rw [spanMask_testBit j ⟨n, by omega⟩ ⟨b % 8, hq⟩ hn]
      simp only [← Bool.decide_and]
      exact decide_eq_decide.2 (by omega)
    unfold markByte
    cases used
    · simp only [Bool.false_eq_true, ite_false, testBit_and_not _ _ (by omega : 7 - b % 8 < 8),
        hmask, hb]
      by_cases h : 8 * i + j.val ≤ b ∧ b < 8 * i + j.val + n <;> simp [h]
    · simp only [ite_true, testBit_or, hmask, hb]
      by_cases h : 8 * i + j.val ≤ b ∧ b < 8 * i + j.val + n <;> simp [h]
  · rename_i hb
    have : ¬(8 * i + j.val ≤ b ∧ b < 8 * i + j.val + n) := by omega
    simp [this]

/-! ## Marking a run -/

/-- `bytes` is the buffer of `a` with the blocks `[first, first + count)` set to `used`: every
    other block keeps its bit, and the buffer keeps its size and every byte past the table. -/
structure Marked (a : Arena) (bytes : ByteArray) (first count : Int) (used : Bool) : Prop where
  size_eq : bytes.size = a.bytes.size
  usedBit_eq : ∀ b : Nat, usedBit { a with bytes := bytes } b =
    if first ≤ b ∧ b < first + count then used else a.usedBit b
  byteAt_eq : ∀ k, a.tableLength ≤ k → Buffer.byteAt bytes k = Buffer.byteAt a.bytes k

theorem Marked.of_nonpos (a : Arena) {first count : Int} (used : Bool) (h : count ≤ 0) :
    a.Marked a.bytes first count used where
  size_eq := rfl
  usedBit_eq b := by
    have : ¬(first ≤ b ∧ b < first + count) := by omega
    simp only [this, ite_false]
  byteAt_eq _ _ := rfl

theorem Marked.congr {a a' : Arena} {bytes : ByteArray} {first count : Int} {used : Bool}
    (h : a.Marked bytes first count used) (hb : a'.bytes = a.bytes)
    (ht : a'.tableLength = a.tableLength) : a'.Marked bytes first count used where
  size_eq := by rw [hb]; exact h.size_eq
  usedBit_eq b := by
    have hsame : ({ a' with bytes := bytes } : Arena).bytes = ({ a with bytes := bytes } : Arena).bytes :=
      rfl
    rw [usedBit_congr hsame b, h.usedBit_eq b, usedBit_congr hb b]
  byteAt_eq k hk := by
    rw [hb]
    exact h.byteAt_eq k (ht ▸ hk)

/-- The byte loop of `markFrom`: from place `j` of table byte `i` on, `count` blocks get
    `used`. The loop stays inside the table because the run ends within it. -/
theorem markFrom_spec (used : Bool) : ∀ (n : Nat) (i : Int64) (j : Fin 8) (count : Int) (a : Arena),
    count.toNat = n → 0 ≤ i.toInt → 8 * i.toInt + j.val + count ≤ 8 * a.tableLength →
    a.tableLength ≤ a.bytes.size → a.tableLength < 2 ^ 63 →
    ∃ bytes : ByteArray, markFrom i j count used a = .ok () { a with bytes := bytes } ∧
      a.Marked bytes (8 * i.toInt + j.val) count used := by
  intro n
  induction n using Nat.strong_induction_on with
  | _ n ih =>
  intro i j count a hn hi hend htable hlen
  by_cases hc : count ≤ 0
  · refine ⟨a.bytes, ?_, Marked.of_nonpos a used hc⟩
    rw [markFrom, dif_pos hc]
  · -- the first byte of the run is inside the table
    have hlt : i.toInt < a.tableLength := by omega
    have hiNat : i.toNatClampNeg < a.bytes.size := by
      show i.toInt.toNat < a.bytes.size
      omega
    set here := min count (8 - j.val) with hhere
    set byte' := markByte (Buffer.byteAt a.bytes i.toNatClampNeg) j here.toNat used with hbyte'
    set a1 : Arena := { a with bytes := Buffer.setByte a.bytes i.toNatClampNeg byte' } with ha1
    have hnext := next_index_toInt hi hlt hlen
    have hsize1 : a1.bytes.size = a.bytes.size := size_setByte _ _ _
    obtain ⟨bytes, hrun, hsize, hbits, hframe⟩ := ih (count - here).toNat (by omega) (i + 1) ⟨0, by decide⟩
      (count - here) a1 rfl (by omega) (by simp only [hnext]; show _ ≤ 8 * (a.tableLength : Int); omega)
      (by rw [hsize1]; exact htable) hlen
    refine ⟨bytes, ?_, by rw [hsize, hsize1], fun b => ?_, fun k hk => ?_⟩
    · rw [markFrom, dif_neg hc]
      simp only [tableByte_of_lt hi hlt]
      exact hrun
    · rw [hbits b]
      have hbyte := usedBit_markByte a j here.toNat used hiNat (by omega) b
      rw [hbyte]
      have h0 : (((⟨0, by decide⟩ : Fin 8).val : Nat) : Int) = 0 := rfl
      simp only [hnext, h0, Int.add_zero]
      have hiNat' := toNatClampNeg_cast hi
      by_cases h1 : 8 * (i.toInt + 1) ≤ b ∧ b < 8 * (i.toInt + 1) + (count - here)
      · have : 8 * i.toInt + j.val ≤ b ∧ b < 8 * i.toInt + j.val + count := by omega
        simp only [h1, this, and_self, ite_true]
      · by_cases h2 : 8 * i.toNatClampNeg + j.val ≤ b ∧ b < 8 * i.toNatClampNeg + j.val + here.toNat
        · have : 8 * i.toInt + j.val ≤ b ∧ b < 8 * i.toInt + j.val + count := by omega
          simp only [h1, h2, this, ite_false]
        · have : ¬(8 * i.toInt + j.val ≤ b ∧ b < 8 * i.toInt + j.val + count) := by omega
          simp only [h1, h2, this, ite_false]
    · rw [hframe k (by simpa using hk)]
      show Buffer.byteAt (Buffer.setByte _ _ _) k = _
      rw [byteAt_setByte _ _ hiNat]
      have : k ≠ i.toNatClampNeg := by
        show k ≠ i.toInt.toNat
        omega
      simp [this]

theorem runStart_spec {first : Int64} (h0 : 0 ≤ first.toInt) :
    8 * (runStart first).1.toInt + (runStart first).2.val = first.toInt ∧
      0 ≤ (runStart first).1.toInt := by
  have hi : (runStart first).1.toInt = first.toInt / 8 := Word.shiftRight_three_toInt first
  have hj : (runStart first).2.val = first.toInt.toNat % 8 := by
    show (first &&& 7).toNatClampNeg % 8 = _
    rw [Word.and_seven_toNatClampNeg h0, Nat.mod_mod]
  rw [hi, hj]
  omega

/-- Marking a run that lies in a table inside the buffer sets exactly its blocks to `used`. -/
theorem markRun_spec (first count : Int64) (used : Bool) (a : Arena) (h0 : 0 ≤ first.toInt)
    (hend : first.toInt + count.toInt ≤ 8 * a.tableLength) (htable : a.tableLength ≤ a.bytes.size)
    (hlen : a.tableLength < 2 ^ 63) :
    ∃ bytes : ByteArray, markRun first count used a = .ok () { a with bytes := bytes } ∧
      a.Marked bytes first.toInt count.toInt used := by
  obtain ⟨hstart, hi⟩ := runStart_spec h0
  obtain ⟨bytes, hrun, hmarked⟩ := markFrom_spec used count.toInt.toNat
    (runStart first).1 (runStart first).2 count.toInt a rfl hi (by omega) htable hlen
  rw [hstart] at hmarked
  exact ⟨bytes, hrun, hmarked⟩

theorem markRun_of_nonpos {first count : Int64} (used : Bool) (a : Arena) (h : count.toInt ≤ 0) :
    markRun first count used a = .ok () a := by
  show markFrom (runStart first).1 (runStart first).2 count.toInt used a = _
  rw [markFrom, dif_pos h]

/-! ## Reading a run -/

/-- A table byte has the bits of the places `[j, j + n)` all equal to `want` exactly when its
    masked value is the whole mask (`want = true`) or zero (`want = false`). -/
theorem and_spanMask_eq_iff (byte : UInt8) (j : Fin 8) (n : Nat) (hn : j.val + n ≤ 8)
    (want : Bool) :
    (byte &&& spanMask j n) = (if want then spanMask j n else 0) ↔
      ∀ q, j.val ≤ q → q < j.val + n → byte.toNat.testBit (7 - q) = want := by
  have hm : ∀ q, q < 8 → (spanMask j n).toNat.testBit (7 - q) =
      (decide (j.val ≤ q) && decide (q < j.val + n)) :=
    fun q hq => spanMask_testBit j ⟨n, by omega⟩ ⟨q, hq⟩ hn
  have htarget : ∀ k, (if want then spanMask j n else 0).toNat.testBit k =
      (want && (spanMask j n).toNat.testBit k) := by
    intro k
    cases want <;> simp
  constructor
  · intro h q hjq hqn
    have hk := congrArg (fun x : UInt8 => x.toNat.testBit (7 - q)) h
    simp only [UInt8.toNat_and, Nat.testBit_and, htarget, hm q (by omega), hjq, hqn, decide_true,
      Bool.and_true] at hk
    exact hk
  · intro h
    apply UInt8.toNat_inj.1
    apply Nat.eq_of_testBit_eq
    intro k
    rw [UInt8.toNat_and, Nat.testBit_and, htarget]
    by_cases hk : k < 8
    · -- place `q` of the byte is bit `7 - q`
      obtain ⟨q, hq, rfl⟩ : ∃ q, q < 8 ∧ k = 7 - q := ⟨7 - k, by omega, by omega⟩
      rw [hm q hq]
      by_cases hin : j.val ≤ q ∧ q < j.val + n
      · simp [hin.1, hin.2, h q hin.1 hin.2]
      · have : (decide (j.val ≤ q) && decide (q < j.val + n)) = false := by
          simp only [Bool.and_eq_false_iff, decide_eq_false_iff_not]
          omega
        simp [this]
    · have : (spanMask j n).toNat.testBit k = false :=
        Nat.testBit_lt_two_pow (Nat.lt_of_lt_of_le (spanMask j n).toNat_lt
          (Nat.pow_le_pow_right (by decide) (by omega)))
      simp [this]

/-- The byte loop of `runFreeFrom` and `runSetFrom`: an empty run answers `true`; otherwise the
    loop reads table byte `i`, answers `false` when `stop` holds of the byte and the mask of the
    run's part of it, and goes on from the top of the next byte. -/
def ScansBy (a : Arena) (stop : UInt8 → UInt8 → Bool)
    (f : Int64 → Fin 8 → Int → Except Fault Bool) : Prop :=
  ∀ i j count, f i j count =
    if count ≤ 0 then .ok true
    else
      match a.tableByte i with
      | .error e => .error e
      | .ok byte =>
        if stop byte (spanMask j (min count (8 - j.val)).toNat) then .ok false
        else f (i + 1) ⟨0, Nat.succ_pos 7⟩ (count - min count (8 - j.val))

theorem scansBy_runFreeFrom (a : Arena) :
    a.ScansBy (fun byte mask => (byte &&& mask) != 0) a.runFreeFrom := by
  intro i j count
  rw [runFreeFrom]
  rfl

theorem scansBy_runSetFrom (a : Arena) :
    a.ScansBy (fun byte mask => (byte &&& mask) != mask) a.runSetFrom := by
  intro i j count
  rw [runSetFrom]
  rfl

/-- A scan whose test lets a byte pass exactly when the run's bits in it all equal `want`
    answers whether every block of the run has bit `want`. The loop stays inside the table
    because the run ends within it. -/
theorem ScansBy.spec {a : Arena} {stop : UInt8 → UInt8 → Bool}
    {f : Int64 → Fin 8 → Int → Except Fault Bool} {want : Bool} (hf : a.ScansBy stop f)
    (hstop : ∀ (byte : UInt8) (j : Fin 8) (n : Nat), j.val + n ≤ 8 →
      (stop byte (spanMask j n) = false ↔
        ∀ q, j.val ≤ q → q < j.val + n → byte.toNat.testBit (7 - q) = want)) :
    ∀ (n : Nat) (i : Int64) (j : Fin 8) (count : Int),
    count.toNat = n → 0 ≤ i.toInt → 8 * i.toInt + j.val + count ≤ 8 * a.tableLength →
    a.tableLength ≤ a.bytes.size → a.tableLength < 2 ^ 63 →
    ∃ r : Bool, f i j count = .ok r ∧
      (r = true ↔ ∀ b : Nat, 8 * i.toInt + j.val ≤ b → b < 8 * i.toInt + j.val + count →
        a.usedBit b = want) := by
  intro n
  induction n using Nat.strong_induction_on with
  | _ n ih =>
  intro i j count hn hi hend htable hlen
  by_cases hc : count ≤ 0
  · refine ⟨true, by rw [hf, if_pos hc], ?_⟩
    simp only [true_iff]
    intro b h1 h2
    omega
  · have hlt : i.toInt < a.tableLength := by omega
    have hiNat' := toNatClampNeg_cast hi
    set here := min count (8 - j.val) with hhere
    set byte := Buffer.byteAt a.bytes i.toNatClampNeg with hbyte
    -- the blocks of the run in byte `i` are read through the bits of `byte`
    have hinByte : ∀ b : Nat, 8 * i.toInt + j.val ≤ b → b < 8 * i.toInt + j.val + here →
        a.usedBit b = byte.toNat.testBit (7 - b % 8) := by
      intro b h1 h2
      rw [usedBit_eq_testBit]
      have : b / 8 = i.toNatClampNeg := by omega
      rw [this]
    have hmask := hstop byte j here.toNat (by omega)
    have hnext := next_index_toInt hi hlt hlen
    have h0 : (((⟨0, by decide⟩ : Fin 8).val : Nat) : Int) = 0 := rfl
    cases hhit : stop byte (spanMask j here.toNat)
    · -- the run's bits in this byte pass: the answer is the rest of the run's
      obtain ⟨r, hrun, hr⟩ := ih (count - here).toNat (by omega) (i + 1) ⟨0, by decide⟩
        (count - here) rfl (by omega) (by simp only [hnext, h0]; omega) htable hlen
      refine ⟨r, ?_, ?_⟩
      · rw [hf, if_neg hc]
        simp only [tableByte_of_lt hi hlt, ← hbyte, ← hhere, hhit, Bool.false_eq_true, ite_false]
        exact hrun
      · rw [hr]
        simp only [hnext, h0, Int.add_zero]
        constructor
        · intro hrest b h1 h2
          by_cases hb : b < 8 * i.toInt + j.val + here
          · rw [hinByte b h1 hb]
            exact hmask.1 hhit (b % 8) (by omega) (by omega)
          · exact hrest b (by omega) (by omega)
        · intro hall b h1 h2
          exact hall b (by omega) (by omega)
    · -- some bit of the run in this byte differs from `want`: the answer is `false`
      refine ⟨false, ?_, ?_⟩
      · rw [hf, if_neg hc]
        simp only [tableByte_of_lt hi hlt, ← hbyte, ← hhere, hhit, ite_true]
      · simp only [Bool.false_eq_true, false_iff, not_forall]
        have hsome : ¬∀ q, j.val ≤ q → q < j.val + here.toNat →
            byte.toNat.testBit (7 - q) = want := by
          rw [← hmask, hhit]
          decide
        push Not at hsome
        obtain ⟨q, hjq, hqn, hset⟩ := hsome
        refine ⟨8 * i.toNatClampNeg + q, by omega, by omega, ?_⟩
        rw [hinByte _ (by omega) (by omega)]
        have : (8 * i.toNatClampNeg + q) % 8 = q := by omega
        rw [this]
        exact hset

/-- The byte loop of `runFreeFrom`: from place `j` of table byte `i` on, it answers whether
    the next `count` blocks are all free. -/
theorem runFreeFrom_spec (a : Arena) : ∀ (n : Nat) (i : Int64) (j : Fin 8) (count : Int),
    count.toNat = n → 0 ≤ i.toInt → 8 * i.toInt + j.val + count ≤ 8 * a.tableLength →
    a.tableLength ≤ a.bytes.size → a.tableLength < 2 ^ 63 →
    ∃ free : Bool, a.runFreeFrom i j count = .ok free ∧
      (free = true ↔ ∀ b : Nat, 8 * i.toInt + j.val ≤ b → b < 8 * i.toInt + j.val + count →
        a.usedBit b = false) :=
  (scansBy_runFreeFrom a).spec fun byte j n hn => by
    simpa using and_spanMask_eq_iff byte j n hn false

/-- The byte loop of `runSetFrom`: from place `j` of table byte `i` on, it answers whether
    the next `count` blocks are all in use. -/
theorem runSetFrom_spec (a : Arena) : ∀ (n : Nat) (i : Int64) (j : Fin 8) (count : Int),
    count.toNat = n → 0 ≤ i.toInt → 8 * i.toInt + j.val + count ≤ 8 * a.tableLength →
    a.tableLength ≤ a.bytes.size → a.tableLength < 2 ^ 63 →
    ∃ set : Bool, a.runSetFrom i j count = .ok set ∧
      (set = true ↔ ∀ b : Nat, 8 * i.toInt + j.val ≤ b → b < 8 * i.toInt + j.val + count →
        a.usedBit b = true) :=
  (scansBy_runSetFrom a).spec fun byte j n hn => by
    simpa using and_spanMask_eq_iff byte j n hn true

/-- Reading a run that lies in a table inside the buffer answers whether all its blocks are
    free. -/
theorem runFree_spec (first count : Int64) (a : Arena) (h0 : 0 ≤ first.toInt)
    (hend : first.toInt + count.toInt ≤ 8 * a.tableLength) (htable : a.tableLength ≤ a.bytes.size)
    (hlen : a.tableLength < 2 ^ 63) :
    ∃ free : Bool, a.runFree first count = .ok free ∧
      (free = true ↔ ∀ b : Nat, first.toInt ≤ b → b < first.toInt + count.toInt →
        a.usedBit b = false) := by
  obtain ⟨hstart, hi⟩ := runStart_spec h0
  obtain ⟨free, hrun, hfree⟩ := runFreeFrom_spec a count.toInt.toNat (runStart first).1
    (runStart first).2 count.toInt rfl hi (by omega) htable hlen
  refine ⟨free, hrun, ?_⟩
  rw [hfree, hstart]

/-- Reading a run that lies in a table inside the buffer answers whether all its blocks are
    in use. -/
theorem runSet_spec (first count : Int64) (a : Arena) (h0 : 0 ≤ first.toInt)
    (hend : first.toInt + count.toInt ≤ 8 * a.tableLength) (htable : a.tableLength ≤ a.bytes.size)
    (hlen : a.tableLength < 2 ^ 63) :
    ∃ set : Bool, a.runSet first count = .ok set ∧
      (set = true ↔ ∀ b : Nat, first.toInt ≤ b → b < first.toInt + count.toInt →
        a.usedBit b = true) := by
  obtain ⟨hstart, hi⟩ := runStart_spec h0
  obtain ⟨set, hrun, hset⟩ := runSetFrom_spec a count.toInt.toNat (runStart first).1
    (runStart first).2 count.toInt rfl hi (by omega) htable hlen
  refine ⟨set, hrun, ?_⟩
  rw [hset, hstart]

theorem runFree_of_nonpos {first count : Int64} (a : Arena) (h : count.toInt ≤ 0) :
    a.runFree first count = .ok true := by
  show a.runFreeFrom (runStart first).1 (runStart first).2 count.toInt = _
  rw [runFreeFrom, dif_pos h]

/-! ## The run primitives, block by block -/

theorem blockUsed_of_lt {a : Arena} {b : Int64} (h0 : 0 ≤ b.toInt)
    (hb : b.toInt < 8 * a.tableLength) : a.blockUsed b = .ok (a.usedBit b.toInt.toNat) := by
  have hi : (b >>> 3).toInt = b.toInt / 8 := Word.shiftRight_three_toInt b
  have hbyte : (b >>> 3).toNatClampNeg = b.toInt.toNat / 8 := by
    show (b >>> 3).toInt.toNat = _
    omega
  unfold blockUsed usedBit
  rw [tableByte_of_lt (by omega) (by omega), hbyte, Word.and_seven_toNatClampNeg h0]
  rfl

/-- What the run primitives promise for the run of `count` blocks from block `first`, with the
    bit of block `b` read as `usedBit b`, the bit `7 - b % 8` of byte `b / 8`. -/
structure RunsRead (a : Arena) (first count : Int64) : Prop where
  /-- Inside the table, `blockUsed` reads that bit. -/
  reads : ∀ b : Int64, 0 ≤ b.toInt → b.toInt < 8 * a.tableLength →
    a.blockUsed b = .ok (a.usedBit b.toInt.toNat)
  /-- `runFree` answers whether no block of the run is in use. -/
  free : ∃ free : Bool, a.runFree first count = .ok free ∧
    (free = true ↔ ∀ b : Nat, first.toInt ≤ b → b < first.toInt + count.toInt →
      a.usedBit b = false)
  /-- `runSet` answers whether every block of the run is in use. -/
  set : ∃ set : Bool, a.runSet first count = .ok set ∧
    (set = true ↔ ∀ b : Nat, first.toInt ≤ b → b < first.toInt + count.toInt →
      a.usedBit b = true)
  /-- `markRun` gives every block of the run the bit `used` and keeps every other bit of
      every byte of the buffer, and the buffer's size. -/
  mark : ∀ used : Bool, ∃ bytes : ByteArray,
    markRun first count used a = .ok () { a with bytes := bytes } ∧
      a.Marked bytes first.toInt count.toInt used

/-- The run primitives agree with the blocks' bits. For a table that lies inside the buffer and
    a run that starts at a block `first ≥ 0` and ends within the table, the byte loops of
    `runFree`, `runSet` and `markRun`, which split the run into a partial first byte, whole
    bytes and a partial last byte, answer and write exactly what the run's blocks, taken one by
    one, call for. -/
theorem run_primitives_read_blocks (a : Arena) (first count : Int64)
    (htable : a.tableLength ≤ a.bytes.size) (hlen : a.tableLength < 2 ^ 63)
    (h0 : 0 ≤ first.toInt) (hend : first.toInt + count.toInt ≤ 8 * a.tableLength) :
    a.RunsRead first count where
  reads _ hb0 hb := blockUsed_of_lt hb0 hb
  free := runFree_spec first count a h0 hend htable hlen
  set := runSet_spec first count a h0 hend htable hlen
  mark used := markRun_spec first count used a h0 hend htable hlen

/-- On a new arena of eight blocks, the run of six blocks from block 5 crosses from the first
    table byte into the second. -/
theorem run_across_a_table_byte :
    ∃ a : Arena, Arena.create true 72 8 8 8 = .ok a ∧ a.tableLength ≤ a.bytes.size ∧
      a.tableLength < 2 ^ 63 ∧ 0 ≤ (5 : Int64).toInt ∧
      (5 : Int64).toInt + (6 : Int64).toInt ≤ 8 * a.tableLength ∧ a.RunsRead 5 6 :=
  ⟨_, rfl, by decide, by decide, by decide, by decide,
    run_primitives_read_blocks _ 5 6 (by decide) (by decide) (by decide) (by decide)⟩

end Arena

end BlockArena
