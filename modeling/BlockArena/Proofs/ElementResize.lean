import BlockArena.Proofs.ResizeContract

/-! # Resizing a run of elements

A typed run resizes through its storage in bytes: its lengths become array layouts, a region of
elements a region of bytes (`ResizeForm.inBytes`), and the usable size answered a length in whole
elements again (`Handle.resizeElems`). When the caller keeps its promise in elements
(`ResizeForm.AdmitsElems`), the arrays and the region in bytes are exact and the request in bytes
is one a storage's caller may make (`ResizeForm.AdmitsElems.admits`). A storage that keeps its
resize contract for such requests (`Storage.KeepsElemResize`) then answers a run that keeps the
promise in elements (`ResizeForm.CarriesElems`), for both kinds of run (`Slice.tryResize_carries`,
`Sliced.tryResize_carries`); a well-formed block storage keeps that contract for a live handle
(`BlockStore.WellFormed.keepsElemResize`).

The region check adds offsets as words, so the promise asks that the ends of a region do not
wrap.
-/

set_option autoImplicit false

namespace BlockArena

/-! ## Arrays and regions in bytes -/

/-- A product of a positive word and one not negative that the overflow check accepts is no
    larger than the largest word. -/
theorem Word.mul_le_maxInt {a b : Int64} (ha : 0 < a.toInt) (hb : 0 ≤ b.toInt)
    (h : Word.mulOverflows a b = false) : a.toInt * b.toInt ≤ Word.maxInt.toInt := by
  by_cases hb0 : b.toInt = 0
  · rw [hb0, Int.mul_zero, Word.maxInt_toInt]
    decide
  have hbpos : 0 < b.toInt := by omega
  have hne : (a == 0 || b == 0) = false := by
    have ha' : a ≠ 0 := fun h0 => by rw [h0] at ha; exact absurd ha (by decide)
    have hb' : b ≠ 0 := fun h0 => hb0 (by rw [h0]; rfl)
    simp [ha', hb']
  unfold Word.mulOverflows at h
  rw [hne, if_neg Bool.false_ne_true] at h
  simp only [Bool.or_eq_false_iff, bne_eq_false_iff_eq, decide_eq_false_iff_not] at h
  obtain ⟨hdiv, hneg⟩ := h
  -- the wrapped product divides back to `a` and is not negative, so `a * b` lies below it
  have hp : 0 ≤ (a * b).toInt := by
    rw [Int64.lt_iff_toInt_lt, Int64.toInt_zero] at hneg
    omega
  have hq : a.toInt = (a * b).toInt / b.toInt := by
    rw [← Word.toInt_div_of_nonneg hp hbpos, hdiv]
  have hlt := (a * b).toInt_lt
  calc a.toInt * b.toInt = (a * b).toInt / b.toInt * b.toInt := by rw [← hq]
    _ ≤ (a * b).toInt := Int.ediv_mul_le _ hbpos.ne'
    _ ≤ Word.maxInt.toInt := by rw [Word.maxInt_toInt]; omega

/-- The array of `count` elements of a type that takes room, when it exists, counts no fewer
    than zero elements and its size is their exact size, no larger than the largest word. -/
theorem Layout.array_elems {e : Elem} {count : Int64} {l : Layout} (he : e.isZeroSized = false)
    (h : Layout.array e.layout count = .ok l) :
    0 ≤ count.toInt ∧ l = ⟨e.size * count, e.align⟩ ∧
      l.size.toInt = e.size.toInt * count.toInt ∧ e.size.toInt * count.toInt ≤ Word.maxInt.toInt := by
  obtain ⟨hc, rfl⟩ := Layout.array_eq_ok h
  have hover : Word.mulOverflows e.size count = false := by
    unfold Layout.array at h
    split at h
    · cases h
    · rename_i hcheck
      have hboth : 0 ≤ count ∧ Word.mulOverflows e.layout.size count = false := by
        simpa using hcheck
      exact hboth.2
  have hfit := Word.mul_le_maxInt (Elem.size_pos he) hc hover
  have hprod := Int.mul_nonneg (Elem.size_nonneg e) hc
  rw [Word.maxInt_toInt] at hfit
  refine ⟨hc, rfl, ?_, by rw [Word.maxInt_toInt]; omega⟩
  show (e.size * count).toInt = _
  exact Word.toInt_mul_of_fits ⟨by omega, by omega⟩

/-- A region that passes the region check between runs of `oldLen` and `newLen` units, with ends
    that do not wrap, lies within the two runs. -/
theorem Region.within_of_fits {r : Region} {oldLen newLen : Int64}
    (h : r.fits oldLen newLen = .ok ()) (hsrc : r.src.toInt + r.size.toInt ≤ Word.maxInt.toInt)
    (hdst : r.dst.toInt + r.size.toInt ≤ Word.maxInt.toInt) :
    r.Within oldLen.toInt newLen.toInt := by
  unfold Region.fits at h
  split_ifs at h with hneg hread hwrite
  simp only [Bool.or_eq_true, decide_eq_true_eq, not_or, Int64.not_lt,
    Int64.le_iff_toInt_le, Int64.toInt_zero] at hneg hread hwrite
  obtain ⟨⟨h₁, h₂⟩, h₃⟩ := hneg
  rw [Word.maxInt_toInt] at hsrc hdst
  have hs := r.src.toInt_lt
  have hd := r.dst.toInt_lt
  rw [Word.toInt_add_of_fits ⟨by omega, by omega⟩] at hread hwrite
  exact ⟨h₁, h₂, h₃, hread, hwrite⟩

/-- `b` is the region `r` of units of `e` bytes, measured in bytes: each of its fields is exactly
    `e` times that of `r`. -/
def Region.Scaled (r b : Region) (e : Int) : Prop :=
  b.src.toInt = r.src.toInt * e ∧ b.dst.toInt = r.dst.toInt * e ∧ b.size.toInt = r.size.toInt * e

/-- A region within two runs whose arrays of `e`-byte units fit a word scales to bytes without
    wrapping, and in bytes it lies within the two arrays. -/
theorem Region.Within.scaled {r : Region} {e oldLen newLen : Int64}
    (hr : r.Within oldLen.toInt newLen.toInt) (he : 0 < e.toInt)
    (hmax : e.toInt * oldLen.toInt ≤ Word.maxInt.toInt)
    (hmax' : e.toInt * newLen.toInt ≤ Word.maxInt.toInt) :
    Region.Scaled r (r.scale e) e.toInt ∧
      (r.scale e).Within (e.toInt * oldLen.toInt) (e.toInt * newLen.toInt) := by
  obtain ⟨h₁, h₂, h₃, h₄, h₅⟩ := hr
  rw [Word.maxInt_toInt] at hmax hmax'
  -- every field lies between zero and one of the two lengths, so its bytes are exact
  have hexact : ∀ v : Int64, 0 ≤ v.toInt → v.toInt * e.toInt ≤ 2 ^ 63 - 1 →
      (v * e).toInt = v.toInt * e.toInt := fun v h0 h1 =>
    Word.toInt_mul_of_fits ⟨by have := Int.mul_nonneg h0 he.le; omega, by omega⟩
  have hread : (r.src.toInt + r.size.toInt) * e.toInt ≤ e.toInt * oldLen.toInt := by
    rw [Int.mul_comm e.toInt]
    exact Int.mul_le_mul_of_nonneg_right h₄ he.le
  have hwrite : (r.dst.toInt + r.size.toInt) * e.toInt ≤ e.toInt * newLen.toInt := by
    rw [Int.mul_comm e.toInt]
    exact Int.mul_le_mul_of_nonneg_right h₅ he.le
  rw [Int.add_mul] at hread hwrite
  have hsrc0 := Int.mul_nonneg h₁ he.le
  have hdst0 := Int.mul_nonneg h₂ he.le
  have hsize0 := Int.mul_nonneg h₃ he.le
  have hsrc := hexact r.src h₁ (by omega)
  have hdst := hexact r.dst h₂ (by omega)
  have hsize := hexact r.size h₃ (by omega)
  refine ⟨⟨hsrc, hdst, hsize⟩, ?_⟩
  simp only [Region.Within, Region.scale]
  rw [hsrc, hdst, hsize]
  omega

/-! ## Resizes in elements -/

namespace ResizeForm

/-- The form with its region, of units of `e` bytes, measured in bytes. -/
def inBytes (form : ResizeForm) (e : Int64) : ResizeForm :=
  { form with region := form.region.map (·.scale e) }

/-- The elements a resize in `form` from `oldLen` elements to `newLen` keeps: its own region, or
    the first `oldLen` when it grows and the first `newLen` when it shrinks. -/
def keptElems (form : ResizeForm) (oldLen newLen : Int64) : Region :=
  form.region.getD (Region.prefixOf (if form.grow then oldLen else newLen))

/-- What the caller of a resize of a run of `oldLen` elements to `newLen` in `form` promises: the
    new length is not negative, a growing form does not shrink and a shrinking one does not grow,
    and the form's own region passes the region check with ends that do not wrap. -/
structure AdmitsElems (form : ResizeForm) (oldLen newLen : Int64) : Prop where
  new_nonneg : 0 ≤ newLen.toInt
  grows : form.grow = true → oldLen.toInt ≤ newLen.toInt
  shrinks : form.grow = false → newLen.toInt ≤ oldLen.toInt
  region : ∀ r, form.region = some r → r.fits oldLen newLen = .ok () ∧
    r.src.toInt + r.size.toInt ≤ Word.maxInt.toInt ∧ r.dst.toInt + r.size.toInt ≤ Word.maxInt.toInt

theorem kept_inBytes (form : ResizeForm) (e oldLen newLen : Int64) (align : UInt64) :
    (form.inBytes e).kept ⟨e * oldLen, align⟩ ⟨e * newLen, align⟩ =
      (form.keptElems oldLen newLen).scale e := by
  obtain ⟨grow, zeroed, region⟩ := form
  cases region with
  | some r => rfl
  | none =>
    cases grow <;>
      simp [kept, keptElems, inBytes, Region.prefixOf, Region.scale, Int64.mul_comm]

variable {form : ResizeForm} {oldLen newLen : Int64}

theorem AdmitsElems.keptElems_of_none (ha : form.AdmitsElems oldLen newLen)
    (hreg : form.region = none) :
    (form.keptElems oldLen newLen).src = 0 ∧ (form.keptElems oldLen newLen).dst = 0 ∧
      (form.keptElems oldLen newLen).size.toInt = min oldLen.toInt newLen.toInt := by
  simp only [keptElems, hreg, Option.getD_none, Region.prefixOf, true_and]
  cases hg : form.grow with
  | true =>
    simp only [ite_true]
    exact (min_eq_left (ha.grows hg)).symm
  | false =>
    simp only [Bool.false_eq_true, ite_false]
    exact (min_eq_right (ha.shrinks hg)).symm

theorem AdmitsElems.keptElems_within (ha : form.AdmitsElems oldLen newLen)
    (hold : 0 ≤ oldLen.toInt) : (form.keptElems oldLen newLen).Within oldLen.toInt newLen.toInt := by
  cases hreg : form.region with
  | some r =>
    obtain ⟨hfits, hsrc, hdst⟩ := ha.region r hreg
    simp only [keptElems, hreg, Option.getD_some]
    exact Region.within_of_fits hfits hsrc hdst
  | none =>
    simp only [keptElems, hreg, Option.getD_none, Region.prefixOf, Region.Within, Int64.toInt_zero]
    have := ha.new_nonneg
    cases hg : form.grow with
    | true =>
      have := ha.grows hg
      simp only [ite_true]
      omega
    | false =>
      have := ha.shrinks hg
      simp only [Bool.false_eq_true, ite_false]
      omega

/-- The arrays of a resize the caller may ask for in elements make a resize in bytes the caller
    of a storage may ask for, and in bytes the form keeps exactly the bytes of the elements it
    keeps. -/
theorem AdmitsElems.admits {e : Elem} {old new : Layout} (ha : form.AdmitsElems oldLen newLen)
    (he : e.isZeroSized = false) (hold : Layout.array e.layout oldLen = .ok old)
    (hnew : Layout.array e.layout newLen = .ok new) :
    (form.inBytes e.size).Admits old new ∧
      Region.Scaled (form.keptElems oldLen newLen) ((form.inBytes e.size).kept old new)
        e.size.toInt := by
  obtain ⟨ho0, rfl, hosize, homax⟩ := Layout.array_elems he hold
  obtain ⟨hn0, rfl, hnsize, hnmax⟩ := Layout.array_elems he hnew
  have hepos := Elem.size_pos he
  obtain ⟨hscaled, -⟩ := (ha.keptElems_within ho0).scaled hepos homax hnmax
  refine ⟨⟨?_, ?_, fun hg => ?_, fun hg => ?_, fun r' hr' => ?_⟩,
    by rw [kept_inBytes]; exact hscaled⟩
  · rw [hosize]
    exact Int.mul_nonneg (Elem.size_nonneg e) ho0
  · rw [hnsize]
    exact Int.mul_nonneg (Elem.size_nonneg e) hn0
  · rw [hosize, hnsize]
    exact Int.mul_le_mul_of_nonneg_left (ha.grows hg) hepos.le
  · rw [hosize, hnsize]
    exact Int.mul_le_mul_of_nonneg_left (ha.shrinks hg) hepos.le
  · -- a region in bytes is the region of elements the form names, measured in bytes
    obtain ⟨r, hreg, rfl⟩ := Option.map_eq_some_iff.1 hr'
    obtain ⟨hfits, hsrc, hdst⟩ := ha.region r hreg
    rw [hosize, hnsize]
    exact ((Region.within_of_fits hfits hsrc hdst).scaled hepos homax hnmax).2

end ResizeForm

namespace Elem

/-- Element `i` of the run of `e` at `p'` in `m'` holds, byte for byte, what element `j` of the
    run at `p` in `m` holds. -/
def Copied (e : Elem) (m : Space) (p : Addr) (j : Int) (m' : Space) (p' : Addr) (i : Int) :
    Prop :=
  ∀ k : Nat, (k : Int) < e.size.toInt →
    Memory.byteAt m' p' (i * e.size.toInt + k) = Memory.byteAt m p (j * e.size.toInt + k)

/-- Every byte of element `i` of the run of `e` at `p` in `m` is zero. -/
def Zeroed (e : Elem) (m : Space) (p : Addr) (i : Int) : Prop :=
  ∀ k : Nat, (k : Int) < e.size.toInt → Memory.byteAt m p (i * e.size.toInt + k) = 0

end Elem

/-- What a resize in `form` from `oldLen` elements of `e` to `newLen` promises of the run of `len`
    elements at `p'` in `m'` it answers, against the run at `p` in `m`: it has room for the new
    length, the kept elements read as before, and a zeroed form leaves every other element of the
    new run zero. -/
structure ResizeForm.CarriesElems (form : ResizeForm) (e : Elem) (oldLen newLen : Int64)
    (m : Space) (p : Addr) (m' : Space) (p' : Addr) (len : Int64) : Prop where
  holds : newLen.toInt ≤ len.toInt
  kept : ∀ i : Nat, (i : Int) < (form.keptElems oldLen newLen).size.toInt →
    e.Copied m p ((form.keptElems oldLen newLen).src.toInt + i) m' p'
      ((form.keptElems oldLen newLen).dst.toInt + i)
  cleared : form.zeroed = true → ∀ i : Int, 0 ≤ i → i < len.toInt →
    i < (form.keptElems oldLen newLen).dst.toInt ∨
      (form.keptElems oldLen newLen).dst.toInt + (form.keptElems oldLen newLen).size.toInt ≤ i →
    e.Zeroed m' p' i

namespace Region.Scaled

variable {r b : Region} {e : Elem}

theorem copied {m m' : Space} {p p' : Addr} (hs : Region.Scaled r b e.size.toInt)
    (hc : b.Carried m p m' p') (he : 0 < e.size.toInt) (i : Nat)
    (hi : (i : Int) < r.size.toInt) :
    e.Copied m p (r.src.toInt + i) m' p' (r.dst.toInt + i) := by
  intro k hk
  obtain ⟨hsrc, hdst, hsize⟩ := hs
  obtain ⟨E, hE⟩ : ∃ E : Nat, (E : Int) = e.size.toInt := ⟨_, Int.toNat_of_nonneg he.le⟩
  rw [← hE] at hk hsize hsrc hdst ⊢
  have hrow : ((i + 1 : Nat) : Int) * E ≤ r.size.toInt * E :=
    Int.mul_le_mul_of_nonneg_right (by push_cast; omega) (Int.natCast_nonneg E)
  have hj : ((i * E + k : Nat) : Int) < b.size.toInt := by
    push_cast at hrow ⊢
    rw [hsize]
    linarith
  have hcar := hc (i * E + k) hj
  have hpos : ∀ x : Int, (x + i) * E + k = x * E + ((i * E + k : Nat) : Int) := fun x => by
    push_cast
    ring
  rw [hpos, hpos, ← hsrc, ← hdst]
  exact hcar

/-- A region of bytes outside which a zeroed form leaves every byte zero below `n` leaves every
    whole element below `n` outside the elements it measures zero. -/
theorem zeroed {m' : Space} {p' : Addr} {n : Int64} (hs : Region.Scaled r b e.size.toInt)
    (he : 0 < e.size.toInt) (hn : 0 ≤ n.toInt)
    (hcl : ∀ j : Int, 0 ≤ j → j < n.toInt →
      j < b.dst.toInt ∨ b.dst.toInt + b.size.toInt ≤ j → Memory.byteAt m' p' j = 0)
    (i : Int) (h0 : 0 ≤ i) (hi : i < (n / e.size).toInt)
    (hout : i < r.dst.toInt ∨ r.dst.toInt + r.size.toInt ≤ i) : e.Zeroed m' p' i := by
  intro k hk
  obtain ⟨-, hdst, hsize⟩ := hs
  rw [Word.toInt_div_of_nonneg hn he] at hi
  -- the element ends at or below the last whole element of `n`
  have hend : (i + 1) * e.size.toInt ≤ n.toInt :=
    le_trans (Int.mul_le_mul_of_nonneg_right (by omega) he.le) (Int.ediv_mul_le _ he.ne')
  have hi0 := Int.mul_nonneg h0 he.le
  rw [Int.add_mul, Int.one_mul] at hend
  apply hcl _ (by omega) (by omega)
  rw [hdst, hsize]
  rcases hout with hlt | hge
  · have := Int.mul_le_mul_of_nonneg_right (show i + 1 ≤ r.dst.toInt by omega) he.le
    rw [Int.add_mul, Int.one_mul] at this
    omega
  · have := Int.mul_le_mul_of_nonneg_right hge he.le
    rw [Int.add_mul] at this
    omega

end Region.Scaled

/-- A resize in bytes that keeps its promise for the arrays of a resize in elements keeps the
    promise in elements, with the whole elements of its usable size as the new length. -/
theorem ResizeForm.Carries.elems {form : ResizeForm} {e : Elem} {oldLen newLen n : Int64}
    {old new : Layout} {m m' : Space} {p p' : Addr} (ha : form.AdmitsElems oldLen newLen)
    (he : e.isZeroSized = false) (hold : Layout.array e.layout oldLen = .ok old)
    (hnew : Layout.array e.layout newLen = .ok new)
    (hc : (form.inBytes e.size).Carries old new m p m' p' n) :
    form.CarriesElems e oldLen newLen m p m' p' (n / e.size) := by
  have hepos := Elem.size_pos he
  obtain ⟨-, hscaled⟩ := ha.admits he hold hnew
  obtain ⟨hn0, -, hnsize, -⟩ := Layout.array_elems he hnew
  have hholds := hc.holds
  rw [hnsize] at hholds
  have hn : 0 ≤ n.toInt := le_trans (Int.mul_nonneg (Elem.size_nonneg e) hn0) hholds
  refine ⟨?_, fun i hi => hscaled.copied hc.kept hepos i hi,
    fun hz => hscaled.zeroed hepos hn (hc.cleared hz)⟩
  rw [Word.toInt_div_of_nonneg hn hepos]
  exact (Int.le_ediv_iff_mul_le hepos).2 (by rw [Int.mul_comm]; exact hholds)

/-! ## Runs of elements -/

/-- The storage keeps its resize contract for the resizes of `h` in `s` from a run of `oldLen`
    elements of `e` to `newLen`: for the arrays of the two lengths, every resize in bytes the
    caller may ask for keeps its promise. -/
def Storage.KeepsElemResize {σ H : Type} [Storage σ H] (s : σ) (h : H) (e : Elem)
    (oldLen newLen : Int64) : Prop :=
  ∀ form old new, Layout.array e.layout oldLen = .ok old →
    Layout.array e.layout newLen = .ok new → form.Admits old new →
    Storage.KeepsResize s h form old new

namespace Handle

variable {σ H : Type} [Storage σ H]

/-- What a resize of the run of `h` in `s` from `oldLen` elements of `e` to `newLen` in `form`
    did when it answered `h'` and `len` in `s'`: the storage resized the array of the old length
    to that of the new one, answering `h'` and a usable size of which `len` counts the whole
    elements, and the run it answered keeps the resize's promise in elements. -/
structure ResizedElems (s : σ) (h : H) (e : Elem) (oldLen newLen : Int64) (form : ResizeForm)
    (s' : σ) (h' : H) (len : Int64) : Prop where
  storage : ∃ old new n, Layout.array e.layout oldLen = .ok old ∧
    Layout.array e.layout newLen = .ok new ∧
    (Storage.resizeWith (form.inBytes e.size) h old new : Act σ (H × Int64)).run s =
      .ok (h', n) s' ∧
    len = n / e.size
  carries : ∃ p p', (Storage.resolve h : Act σ Addr).run s = .ok p s ∧
    (Storage.resolve h' : Act σ Addr).run s' = .ok p' s' ∧
    form.CarriesElems e oldLen newLen (Storage.memory s) p (Storage.memory s') p' len

variable {s s' : σ} {h h' : H} {e : Elem} {oldLen newLen len : Int64} {form : ResizeForm}

/-- A resize of a run of elements that take room that succeeds has resized the arrays of the two
    lengths through the storage, and answers the whole elements of the usable size. -/
theorem resizeElems_run (he : e.isZeroSized = false)
    (hrun : (resizeElems e h oldLen newLen form : Act σ (H × Int64)).run s = .ok (h', len) s') :
    ∃ old new n, Layout.array e.layout oldLen = .ok old ∧
      Layout.array e.layout newLen = .ok new ∧
      (Storage.resizeWith (form.inBytes e.size) h old new : Act σ (H × Int64)).run s =
        .ok (h', n) s' ∧
      len = n / e.size := by
  unfold resizeElems at hrun
  rw [if_neg (by simp [he])] at hrun
  obtain ⟨old, s₁, harr, hrun₁⟩ := Act.run_bind_eq_ok hrun
  obtain ⟨hold, rfl⟩ := Act.ofExcept_run_ok harr
  obtain ⟨new, s₂, harr', hrun₂⟩ := Act.run_bind_eq_ok hrun₁
  obtain ⟨hnew, rfl⟩ := Act.ofExcept_run_ok harr'
  obtain ⟨⟨h₁, n⟩, s₃, hwith, hpure⟩ := Act.run_bind_eq_ok hrun₂
  cases hpure
  exact ⟨old, new, n, hold, hnew, hwith, rfl⟩

/-- A resize of a run of elements that its caller asks as it promises, on a storage that keeps
    its resize contract, keeps the resize's promise in elements. -/
theorem resizeElems_carries (he : e.isZeroSized = false) (ha : form.AdmitsElems oldLen newLen)
    (hk : Storage.KeepsElemResize s h e oldLen newLen)
    (hrun : (resizeElems e h oldLen newLen form : Act σ (H × Int64)).run s = .ok (h', len) s') :
    ResizedElems s h e oldLen newLen form s' h' len := by
  obtain ⟨old, new, n, hold, hnew, hwith, rfl⟩ := resizeElems_run he hrun
  obtain ⟨hadm, -⟩ := ha.admits he hold hnew
  obtain ⟨p, hp, hkeep⟩ := hk _ old new hold hnew hadm
  obtain ⟨p', hp', hc⟩ := hkeep h' n s' hwith
  exact ⟨⟨old, new, n, hold, hnew, hwith, rfl⟩, p, p', hp, hp', hc.elems ha he hold hnew⟩

end Handle

/-- A run that carries its length, resized as its caller promises on a storage that keeps its
    resize contract, becomes the storage's answer: its length counts the whole elements of the
    usable size the storage answers, and it keeps the resize's promise in elements. -/
theorem Slice.tryResize_carries {σ H : Type} [Storage σ H] {s s' : σ} {sl sl' : Slice H}
    {newLen : Int64} {form : ResizeForm} (he : sl.elem.isZeroSized = false)
    (ha : form.AdmitsElems sl.len newLen)
    (hk : Storage.KeepsElemResize s sl.raw sl.elem sl.len newLen)
    (hrun : (sl.tryResize newLen form : Act σ (Slice H)).run s = .ok sl' s') :
    sl'.elem = sl.elem ∧
      Handle.ResizedElems s sl.raw sl.elem sl.len newLen form s' sl'.raw sl'.len := by
  unfold Slice.tryResize at hrun
  obtain ⟨⟨h, len⟩, s₁, hres, hpure⟩ := Act.run_bind_eq_ok hrun
  cases hpure
  exact ⟨rfl, Handle.resizeElems_carries he ha hk hres⟩

/-- A run whose length its storage records, resized from the length it reads as its caller
    promises, on a storage that records the usable size it answers and keeps its resize contract,
    then reads as its length the whole elements of that usable size, and keeps the resize's
    promise in elements. -/
theorem Sliced.tryResize_carries {σ H : Type} [Storage σ H] {I : σ → Prop}
    (hr : Storage.Records σ I) {s s' : σ} (hs : I s) {sl sl' : Sliced H}
    {oldLen newLen : Int64} {form : ResizeForm} (he : sl.elem.isZeroSized = false)
    (hlen : (sl.len : Act σ Int64).run s = .ok oldLen s) (ha : form.AdmitsElems oldLen newLen)
    (hk : Storage.KeepsElemResize s sl.raw sl.elem oldLen newLen)
    (hrun : (sl.tryResize newLen form : Act σ (Sliced H)).run s = .ok sl' s') :
    sl'.elem = sl.elem ∧ ∃ len, (sl'.len : Act σ Int64).run s' = .ok len s' ∧
      Handle.ResizedElems s sl.raw sl.elem oldLen newLen form s' sl'.raw len := by
  unfold Sliced.tryResize at hrun
  rw [Act.run_bind_ok hlen] at hrun
  obtain ⟨⟨h, len⟩, s₁, hres, hpure⟩ := Act.run_bind_eq_ok hrun
  cases hpure
  have hdone := Handle.resizeElems_carries he ha hk hres
  obtain ⟨old, new, n, -, -, hwith, rfl⟩ := hdone.storage
  have hsize := hr.resizeWith _ _ _ _ s _ _ hs hwith
  refine ⟨rfl, n / sl.elem.size, ?_, hdone⟩
  simp only [Sliced.len, if_neg (by simp [he] : ¬ sl.elem.isZeroSized = true)]
  rw [Act.run_bind_ok hsize]
  rfl

/-- A well-formed block storage keeps its resize contract for a live handle whose entry holds the
    array of the old length, when the array of the new length rounds up to whole blocks without
    overflow. -/
theorem BlockStore.WellFormed.keepsElemResize {s : BlockStore} {h : UInt64} {ent : BlockEntry}
    {e : Elem} {oldLen newLen : Int64} (hw : s.WellFormed) (hl : s.entries.lookup h = some ent)
    (he : e.isZeroSized = false) (hold : e.size.toInt * oldLen.toInt ≤ ent.size.toInt)
    (hfit : e.size.toInt * newLen.toInt + s.arena.blockSize.toInt - 1 ≤ Word.maxInt.toInt) :
    Storage.KeepsElemResize s h e oldLen newLen := by
  intro form old new harr harr' ha
  obtain ⟨-, -, hosize, -⟩ := Layout.array_elems he harr
  obtain ⟨-, -, hnew⟩ := Arena.sized_array harr' hfit hw.geometry.blockSize_pos
  exact hw.keepsResize hl (by rw [hosize]; exact hold) hnew ha

/-! ## Resizing runs of elements -/

/-- Resizing a run of elements keeps what the run held, element by element. Take an element
    type that takes room, lengths `oldLen` and `newLen` and a form the caller may ask for between
    them. A region of the form measures exactly in bytes whenever the arrays of both lengths
    exist, and a form without a region keeps the first `min oldLen newLen` elements. A run of
    `oldLen` elements that carries its length, resized on a storage that keeps its resize
    contract, and a run whose storage records its length as `oldLen`, on one that also records the
    usable size it answers, become the storage's answer: the new length counts the whole elements
    of the usable size the storage answers and is at least `newLen`, the kept elements read as the
    old ones did, and a zeroed form leaves every other element zero. A well-formed block storage
    keeps the contract for a live handle whose entry holds the old array, when the new array
    rounds up to whole blocks without overflow. -/
theorem resized_runs_keep_their_elements (e : Elem) (he : e.isZeroSized = false)
    (oldLen newLen : Int64) (form : ResizeForm) (ha : form.AdmitsElems oldLen newLen) :
    (∀ (r : Region) (old new : Layout), form.region = some r →
      Layout.array e.layout oldLen = .ok old → Layout.array e.layout newLen = .ok new →
      Region.Scaled r (r.scale e.size) e.size.toInt) ∧
    (form.region = none →
      (form.keptElems oldLen newLen).src = 0 ∧ (form.keptElems oldLen newLen).dst = 0 ∧
        (form.keptElems oldLen newLen).size.toInt = min oldLen.toInt newLen.toInt) ∧
    (∀ {σ H : Type} [Storage σ H] (s s' : σ) (sl sl' : Slice H), sl.elem = e →
      sl.len = oldLen → Storage.KeepsElemResize s sl.raw e oldLen newLen →
      (sl.tryResize newLen form : Act σ (Slice H)).run s = .ok sl' s' →
      sl'.elem = e ∧ Handle.ResizedElems s sl.raw e oldLen newLen form s' sl'.raw sl'.len) ∧
    (∀ {σ H : Type} [Storage σ H] (I : σ → Prop), Storage.Records σ I →
      ∀ (s s' : σ) (sl sl' : Sliced H), I s → sl.elem = e →
      (sl.len : Act σ Int64).run s = .ok oldLen s →
      Storage.KeepsElemResize s sl.raw e oldLen newLen →
      (sl.tryResize newLen form : Act σ (Sliced H)).run s = .ok sl' s' →
      sl'.elem = e ∧ ∃ len, (sl'.len : Act σ Int64).run s' = .ok len s' ∧
        Handle.ResizedElems s sl.raw e oldLen newLen form s' sl'.raw len) ∧
    (∀ (s : BlockStore) (h : UInt64) (ent : BlockEntry), s.WellFormed →
      s.entries.lookup h = some ent → e.size.toInt * oldLen.toInt ≤ ent.size.toInt →
      e.size.toInt * newLen.toInt + s.arena.blockSize.toInt - 1 ≤ Word.maxInt.toInt →
      Storage.KeepsElemResize s h e oldLen newLen) := by
  refine ⟨?bytes, ha.keptElems_of_none, ?slice, ?sliced, ?block⟩
  case bytes =>
    intro r old new hreg hold hnew
    obtain ⟨hfits, hsrc, hdst⟩ := ha.region r hreg
    obtain ⟨-, -, -, homax⟩ := Layout.array_elems he hold
    obtain ⟨-, -, -, hnmax⟩ := Layout.array_elems he hnew
    exact ((Region.within_of_fits hfits hsrc hdst).scaled (Elem.size_pos he) homax hnmax).1
  case slice =>
    intro σ H _ s s' sl sl' hel hlen hk hrun
    subst hel hlen
    exact Slice.tryResize_carries he ha hk hrun
  case sliced =>
    intro σ H _ I hr s s' sl sl' hs hel hlen hk hrun
    subst hel
    exact Sliced.tryResize_carries hr hs he hlen ha hk hrun
  case block =>
    intro s h ent hw hl hold hfit
    exact hw.keepsElemResize hl he hold hfit

open BlockStore in
set_option maxRecDepth 20000 in
/-- Two-byte elements on a store of eight blocks of eight bytes: the run of the four elements of
    handle `1` grows to eight, keeping its first two as the third and fourth and clearing the
    others. -/
theorem resized_run_keeps_elements_on_blocks :
    ∃ s₀ : BlockStore, BlockStore.create (.pinned false false) 8 8 0 = .ok s₀ ∧
      ∃ s' : BlockStore,
      ((⟨.u16, 1, 4⟩ : Slice UInt64).tryResize 8 ⟨true, true, some ⟨0, 2, 2⟩⟩ :
        Act BlockStore (Slice UInt64)).run (StoreCall.runAll [.allocate ⟨8, 2⟩] s₀) =
          .ok ⟨.u16, 1, 8⟩ s' ∧
      Handle.ResizedElems (StoreCall.runAll [.allocate ⟨8, 2⟩] s₀) (1 : UInt64) .u16 4 8
        ⟨true, true, some ⟨0, 2, 2⟩⟩ s' 1 8 := by
  let s₀ : BlockStore :=
    { arena := { blockSize := 8, blockCount := 8, managementBlocks := 1, bufferSize := 72,
                 bufferAlign := 8, bytes := Buffer.zeros 72, tableLength := 8 },
      flags := 0 }
  have hcreate : BlockStore.create (.pinned false false) 8 8 0 = .ok s₀ := rfl
  obtain ⟨hw₀, hnext₀⟩ := WellFormed.of_create hcreate (by decide) (Parent.pinned_servesAtMost _ _)
  obtain ⟨hw, -, -⟩ := hw₀.runAll [.allocate ⟨8, 2⟩] (by rw [hnext₀]; decide)
    ⟨⟨rfl, by simp only [Arena.Sized]; decide⟩, trivial⟩
  have hl : (StoreCall.runAll [.allocate ⟨8, 2⟩] s₀).entries.lookup 1 = some ⟨8, ⟨8, 2⟩, 8⟩ := by
    cbv
  have hfit : Elem.u16.size.toInt * (8 : Int64).toInt +
      (StoreCall.runAll [.allocate ⟨8, 2⟩] s₀).arena.blockSize.toInt - 1 ≤ Word.maxInt.toInt := by
    cbv
    exact .mk _
  have ha : ResizeForm.AdmitsElems ⟨true, true, some ⟨0, 2, 2⟩⟩ 4 8 :=
    ⟨by decide, fun _ => by decide, fun h => Bool.noConfusion h,
      fun r hr => by cases hr; exact ⟨rfl, by decide, by decide⟩⟩
  have hrun : ((⟨.u16, 1, 4⟩ : Slice UInt64).tryResize 8 ⟨true, true, some ⟨0, 2, 2⟩⟩ :
      Act BlockStore (Slice UInt64)).run (StoreCall.runAll [.allocate ⟨8, 2⟩] s₀) =
      .ok ⟨.u16, 1, 8⟩ (Act.leaves ((⟨.u16, 1, 4⟩ : Slice UInt64).tryResize 8
        ⟨true, true, some ⟨0, 2, 2⟩⟩ : Act BlockStore (Slice UInt64))
          (StoreCall.runAll [.allocate ⟨8, 2⟩] s₀)) := by
    cbv
  have hrs := resized_runs_keep_their_elements .u16 rfl 4 8 _ ha
  have hk := hrs.2.2.2.2 _ 1 _ hw hl (by decide) hfit
  exact ⟨s₀, hcreate, _, hrun, (hrs.2.2.1 _ _ _ _ rfl rfl hk hrun).2⟩

/-- The region check adds a region's offsets as words: one element read at the largest index
    passes it between runs of one element, its end wrapping below zero, while the arrays of both
    lengths exist; measured in bytes of two-byte elements, its source offset wraps. -/
theorem wrapping_region_passes_fits :
    Region.fits ⟨Word.maxInt, 0, 1⟩ 1 1 = .ok () ∧ Layout.array Elem.u16.layout 1 = .ok ⟨2, 2⟩ ∧
      ¬ Region.Scaled ⟨Word.maxInt, 0, 1⟩ (Region.scale ⟨Word.maxInt, 0, 1⟩ Elem.u16.size)
        Elem.u16.size.toInt := by
  refine ⟨rfl, rfl, ?_⟩
  rintro ⟨hsrc, -, -⟩
  exact absurd hsrc (by decide)

end BlockArena
