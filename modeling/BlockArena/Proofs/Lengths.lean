import BlockArena.Proofs.Frame

/-! # A run's length is the size its storage records

A `Slice` carries the length its storage gave it when it was allocated or last resized; a
`Sliced` handle reads its length from the usable size the storage records for the handle. The
two agree as long as the storage records exactly the size it reports (`Storage.Records`): a run
that was just allocated or resized has the recorded size, in elements, as its length
(`Slice.Agrees`); a `Sliced` handle built from its raw parts then reports the same length and
resolves to the same view, and the layout the run frees with is no larger than the recorded
size, when that size is not negative.

A block storage records what it reports on a well-formed store, an inline storage always (its
usable size is its whole buffer), and so does every storage behind `Sized`. Agreement lasts:
calls that only look change nothing; on a block storage, a call that does not name the run's
handle keeps its entry's size, a compaction included; and no call changes the size of an inline
storage's buffer.
-/

set_option autoImplicit false

namespace BlockArena

/-- A storage that records the usable size it reports: after an allocation, a clearing
    allocation or a resize in any form answers a handle and a size from a state where `I` holds,
    reading the handle's recorded size answers that size and changes nothing. -/
structure Storage.Records (σ : Type) {H : Type} [Storage σ H] (I : σ → Prop) : Prop where
  allocate : ∀ l (s : σ) (a : H × Int64) s', I s →
    (Storage.allocate l : Act σ (H × Int64)).run s = .ok a s' →
    (Handle.sizeOf a.1 : Act σ Int64).run s' = .ok a.2 s'
  allocateZeroed : ∀ l (s : σ) (a : H × Int64) s', I s →
    (Storage.allocateZeroed l : Act σ (H × Int64)).run s = .ok a s' →
    (Handle.sizeOf a.1 : Act σ Int64).run s' = .ok a.2 s'
  resizeWith : ∀ form (h : H) old new (s : σ) (a : H × Int64) s', I s →
    (Storage.resizeWith form h old new : Act σ (H × Int64)).run s = .ok a s' →
    (Handle.sizeOf a.1 : Act σ Int64).run s' = .ok a.2 s'

theorem Word.div_mul_le {n k : Int64} (hn : 0 ≤ n.toInt) (hk : 0 < k.toInt) :
    0 ≤ (n / k * k).toInt ∧ (n / k * k).toInt ≤ n.toInt := by
  have hdiv := Word.toInt_div_of_nonneg hn hk
  have hq : 0 ≤ n.toInt / k.toInt := Int.ediv_nonneg hn hk.le
  have hle : n.toInt / k.toInt * k.toInt ≤ n.toInt := Int.ediv_mul_le _ (by omega)
  have hlt := n.toInt_lt
  have hmul : (n / k * k).toInt = n.toInt / k.toInt * k.toInt := by
    rw [Word.toInt_mul_of_fits (by rw [hdiv]; constructor <;> nlinarith), hdiv]
  rw [hmul]
  exact ⟨Int.mul_nonneg hq hk.le, hle⟩

namespace Slice

variable {σ H : Type} [Storage σ H]

/-- The run's length is the usable size its storage records for its handle, in elements; reading
    that size changes nothing. -/
def Agrees (sl : Slice H) (s : σ) : Prop :=
  ∃ n, (Handle.sizeOf sl.raw : Act σ Int64).run s = .ok n s ∧ sl.len = n / sl.elem.size

theorem tryAllocate_agrees {I : σ → Prop} (hr : Storage.Records σ I) {s s' : σ} (hs : I s)
    {e : Elem} {count : Int64} {zeroed : Bool} {sl : Slice H} (he : e.isZeroSized = false)
    (hrun : (tryAllocate e count zeroed : Act σ (Slice H)).run s = .ok sl s') :
    sl.elem = e ∧ sl.Agrees s' := by
  unfold tryAllocate at hrun
  obtain ⟨l, s₁, hl, hrun⟩ := Act.run_bind_eq_ok hrun
  rw [Act.Reads.ofExcept _ _ _ _ hl, if_neg (by simp [he])] at hrun
  dsimp only at hrun
  -- either way the storage answered a handle and a size, and the run counts the size
  cases zeroed with
  | false =>
    obtain ⟨⟨h, n⟩, s₂, halloc, hpure⟩ := Act.run_bind_eq_ok hrun
    cases hpure
    exact ⟨rfl, n, hr.allocate l s (h, n) _ hs halloc, rfl⟩
  | true =>
    obtain ⟨⟨h, n⟩, s₂, halloc, hpure⟩ := Act.run_bind_eq_ok hrun
    cases hpure
    exact ⟨rfl, n, hr.allocateZeroed l s (h, n) _ hs halloc, rfl⟩

theorem tryResize_agrees {I : σ → Prop} (hr : Storage.Records σ I) {s s' : σ} (hs : I s)
    {sl sl' : Slice H} {newLen : Int64} {form : ResizeForm} (he : sl.elem.isZeroSized = false)
    (hrun : (sl.tryResize newLen form : Act σ (Slice H)).run s = .ok sl' s') :
    sl'.elem = sl.elem ∧ sl'.Agrees s' := by
  unfold tryResize at hrun
  obtain ⟨⟨h, m⟩, s₁, hres, hpure⟩ := Act.run_bind_eq_ok hrun
  cases hpure
  unfold Handle.resizeElems at hres
  rw [if_neg (by simp [he])] at hres
  obtain ⟨old, s₂, hold, hres⟩ := Act.run_bind_eq_ok hres
  rw [Act.Reads.ofExcept _ _ _ _ hold] at hres
  obtain ⟨new, s₃, hnew, hres⟩ := Act.run_bind_eq_ok hres
  rw [Act.Reads.ofExcept _ _ _ _ hnew] at hres
  obtain ⟨⟨h', n⟩, s₄, hwith, hpure⟩ := Act.run_bind_eq_ok hres
  cases hpure
  exact ⟨rfl, _, hr.resizeWith _ _ _ _ s _ _ hs hwith, rfl⟩

theorem Agrees.of_inert {sl : Slice H} {s : σ} {α : Type} {x : Act σ α} (ha : sl.Agrees s)
    (hx : Act.Inert x) : sl.Agrees (Act.leaves x s) := by
  rw [← Op.run_eq_of_inert (o := ⟨x⟩) hx s] at ha
  exact ha

/-- A `Sliced` handle built from the raw parts of an agreeing run reads the same length and
    resolves to the same view, on a storage whose resolving changes nothing. -/
theorem Agrees.sliced {sl : Slice H} {s : σ} (ha : sl.Agrees s)
    (hresolve : ∀ h : H, Act.Reads (Storage.resolve h : Act σ Addr))
    (he : sl.elem.isZeroSized = false) :
    (Sliced.len ⟨sl.elem, sl.raw⟩ : Act σ Int64).run s = .ok sl.len s ∧
      (Sliced.resolve ⟨sl.elem, sl.raw⟩ : Act σ View).run s = (sl.resolve : Act σ View).run s := by
  obtain ⟨n, hn, hlen⟩ := ha
  have hzs : ¬ sl.elem.isZeroSized = true := by simp [he]
  refine ⟨?_, ?_⟩
  · simp only [Sliced.len, if_neg hzs]
    rw [Act.run_bind_ok hn, hlen]
    rfl
  · simp only [Sliced.resolve, Sliced.resolveRaw, Slice.resolve, Slice.resolveRaw, if_neg hzs]
    cases hp : (Storage.resolve sl.raw : Act σ Addr).run s with
    | ok p s₁ =>
      obtain rfl := hresolve sl.raw s p s₁ hp
      simp only [EStateM.run] at hp hn
      simp only [EStateM.run, bind, EStateM.bind, hp, hn, pure, EStateM.pure, hlen]
    | error f s₁ =>
      rw [Act.run_bind_error (Act.run_bind_error hp), Act.run_bind_error hp]

/-- A run of elements that take room frees with the layout of its length, which is no larger
    than the size its storage records, when that size is not negative. -/
theorem Agrees.deallocate {sl : Slice H} {s : σ} (ha : sl.Agrees s)
    (he : sl.elem.isZeroSized = false) :
    (sl.deallocate : Act σ Unit) = Storage.deallocate sl.raw ⟨sl.len * sl.elem.size, sl.elem.align⟩ ∧
      ∀ n, (Handle.sizeOf sl.raw : Act σ Int64).run s = .ok n s → 0 ≤ n.toInt →
        0 ≤ (sl.len * sl.elem.size).toInt ∧ (sl.len * sl.elem.size).toInt ≤ n.toInt := by
  refine ⟨by simp [Slice.deallocate, he], fun n hn hpos => ?_⟩
  obtain ⟨m, hm, hlen⟩ := ha
  rw [hm] at hn
  cases hn
  rw [hlen]
  exact Word.div_mul_le hpos (Elem.size_pos he)

end Slice

/-! ## Block storage -/

namespace BlockStore

theorem nextHandle_ne_dangling {s : BlockStore} (hw : s.WellFormed) :
    s.nextHandle ≠ danglingHandle := fun h => by
  have hpos := hw.nextHandle_pos
  rw [h] at hpos
  exact absurd hpos (by decide)

theorem lookup_live {s s' : BlockStore} {h : UInt64} {e : BlockEntry}
    (hrun : (lookup h).run s = .ok e s') : s.entries.lookup h = some e := by
  cases hl : s.entries.lookup h with
  | none =>
    rw [lookup_run_of_none hl] at hrun
    cases hrun
  | some e' =>
    rw [lookup_run_of_some hl] at hrun
    cases hrun
    rfl

theorem resizeWith_live {form : ResizeForm} {h : UInt64} {old new : Layout} {s s' : BlockStore}
    {a : UInt64 × Int64}
    (hrun : (Storage.resizeWith form h old new : Act BlockStore (UInt64 × Int64)).run s = .ok a s') :
    ∃ e, s.entries.lookup h = some e := by
  obtain ⟨s₁, hres, -⟩ := Act.resizeBy_run_ok (fun h => .of_reads (resolve_inert h).1)
    sameEntries_withSpace hrun
  unfold resize at hres
  obtain ⟨e, s₂, hlook, -⟩ := Act.run_bind_eq_ok hres
  exact ⟨e, lookup_live hlook⟩

theorem records : Storage.Records BlockStore WellFormed where
  allocate l s a s' hw hrun := by
    obtain ⟨h₁, hholds, -⟩ := allocate_run_ok hrun
    refine resolveSize_run_of_holds hholds ?_
    rw [h₁]
    exact nextHandle_ne_dangling hw
  allocateZeroed l s a s' hw hrun := by
    obtain ⟨h₁, hholds, -⟩ := allocateZeroed_run_ok hrun
    refine resolveSize_run_of_holds hholds ?_
    rw [h₁]
    exact nextHandle_ne_dangling hw
  resizeWith form h old new s a s' hw hrun := by
    obtain ⟨h₁, hholds, -⟩ := resizeWith_settles form h old new s a s' hrun
    obtain ⟨e, hl⟩ := resizeWith_live hrun
    rw [h₁]
    exact resolveSize_run_of_holds hholds (live_ne_dangling hw hl)

theorem WellFormed.size_nonneg {s : BlockStore} (hw : s.WellFormed) {h : UInt64} {e : BlockEntry}
    (hl : s.entries.lookup h = some e) : 0 ≤ e.size.toInt :=
  hw.size_nonneg_of_mem (mem_of_lookup hl)

/-- On a well-formed store, a run of a live handle agrees after every answered call that does not
    name its handle, a compaction included. -/
theorem agrees_run {s : BlockStore} (hw : s.WellFormed) {sl : Slice UInt64} (ha : sl.Agrees s)
    {e : BlockEntry} (hl : s.entries.lookup sl.raw = some e) {c : StoreCall}
    (hc : c.handle? ≠ some sl.raw) (hans : c.op.Answers s) : sl.Agrees (c.run s) := by
  obtain ⟨n, hn, hlen⟩ := ha
  have hsize : e.size = n := by
    have hrun : (resolveSize sl.raw).run s = .ok e.size s := hw.resolveSize_run hl
    rw [show (resolveSize sl.raw).run s = (Handle.sizeOf sl.raw : Act BlockStore Int64).run s
      from rfl, hn] at hrun
    cases hrun
    rfl
  have hholds := StoreCall.holds_run hw ⟨e, hl, hsize⟩ hc hans
  exact ⟨n, resolveSize_run_of_holds hholds (live_ne_dangling hw hl), hlen⟩

end BlockStore

/-! ## Inline storage -/

namespace InlineStore

/-- Two states whose buffers have the same size. -/
def SameCapacity (s s' : InlineStore) : Prop := s'.capacityBytes = s.capacityBytes

instance : Std.Refl SameCapacity := ⟨fun _ => rfl⟩

instance : IsTrans InlineStore SameCapacity := ⟨fun _ _ _ h₁ h₂ => h₂.trans h₁⟩

theorem sameCapacity_withSpace (s : InlineStore) (m : Space) : SameCapacity s (s.withSpace m) :=
  rfl

@[simp] theorem run_sizeOf (h : Unit) (s : InlineStore) :
    (Handle.sizeOf h : Act InlineStore Int64).run s = .ok s.capacityBytes s := rfl

/-- An answered allocation hands out the whole buffer: it marks the buffer taken and counts
    once, and nothing else changes. -/
theorem allocate_run_eq {l : Layout} {s s' : InlineStore} {a : Unit × Int64}
    (hrun : (allocate l).run s = .ok a s') :
    a = ((), s.capacityBytes) ∧ s' = { s with allocated := true, epoch := s.epoch + 1 } := by
  unfold allocate at hrun
  rw [Act.run_bind_ok (Act.run_get s)] at hrun
  obtain ⟨u, s₁, hfits, hrun⟩ := Act.run_bind_eq_ok hrun
  rw [Act.Reads.ofExcept _ _ _ _ hfits] at hrun
  -- a taken buffer is refused; a free one is marked taken, then the epoch moves
  split at hrun
  · cases hrun
  · obtain ⟨_, s₂, hset, hrun⟩ := Act.run_bind_eq_ok hrun
    cases hset
    obtain ⟨_, s₃, hbump, hrun⟩ := Act.run_bind_eq_ok hrun
    cases hbump
    cases hrun
    exact ⟨rfl, rfl⟩

theorem allocate_run_ok {l : Layout} {s s' : InlineStore} {a : Unit × Int64}
    (hrun : (allocate l).run s = .ok a s') : a.2 = s.capacityBytes ∧ SameCapacity s s' := by
  obtain ⟨rfl, rfl⟩ := allocate_run_eq hrun
  exact ⟨rfl, rfl⟩

/-- A resize answers the whole buffer and keeps its size: a shift writes inside the buffer and
    never touches the element type or the capacity. -/
theorem resize_run_ok {grow : Bool} {h : Unit} {old new : Layout} {r : Region}
    {s s' : InlineStore} {a : Unit × Int64} (hrun : (resize grow h old new r).run s = .ok a s') :
    a.2 = s.capacityBytes ∧ SameCapacity s s' := by
  obtain ⟨-, rfl, ⟨-, m, -, rfl⟩ | ⟨-, rfl⟩⟩ := resize_run_cases hrun <;> exact ⟨rfl, rfl⟩

theorem resolve_keeps (h : Unit) :
    Act.Keeps SameCapacity (Storage.resolve h : Act InlineStore Addr) :=
  .of_reads (base_inert.1)

theorem allocateZeroed_run_ok {l : Layout} {s s' : InlineStore} {a : Unit × Int64}
    (hrun : (Storage.allocateZeroed l : Act InlineStore (Unit × Int64)).run s = .ok a s') :
    a.2 = s.capacityBytes ∧ SameCapacity s s' := by
  obtain ⟨s₁, halloc, hsame⟩ := Act.allocateZeroed_run_ok resolve_keeps sameCapacity_withSpace hrun
  obtain ⟨h₁, hsame₁⟩ := allocate_run_ok halloc
  exact ⟨h₁, hsame.trans hsame₁⟩

theorem resizeWith_run_ok {form : ResizeForm} {h : Unit} {old new : Layout} {s s' : InlineStore}
    {a : Unit × Int64}
    (hrun : (Storage.resizeWith form h old new : Act InlineStore (Unit × Int64)).run s = .ok a s') :
    a.2 = s.capacityBytes ∧ SameCapacity s s' := by
  obtain ⟨s₁, hres, hsame⟩ := Act.resizeBy_run_ok resolve_keeps sameCapacity_withSpace hrun
  obtain ⟨h₁, hsame₁⟩ := resize_run_ok hres
  exact ⟨h₁, hsame.trans hsame₁⟩

theorem records : Storage.Records InlineStore fun _ => True where
  allocate l s a s' _ hrun := by
    obtain ⟨h₁, hsame⟩ := allocate_run_ok hrun
    rw [run_sizeOf, hsame, h₁]
  allocateZeroed l s a s' _ hrun := by
    obtain ⟨h₁, hsame⟩ := allocateZeroed_run_ok hrun
    rw [run_sizeOf, hsame, h₁]
  resizeWith form h old new s a s' _ hrun := by
    obtain ⟨h₁, hsame⟩ := resizeWith_run_ok hrun
    rw [run_sizeOf, hsame, h₁]

theorem call_keeps (call : Storage.Call Unit) :
    Act.Keeps SameCapacity (call.op (σ := InlineStore)).act := by
  cases call with
  | dangling align => exact .of_reads (.pure _)
  | resolve h => exact resolve_keeps h
  | sizeOf h => exact .of_reads (Act.Inert.get.bind fun _ => .pure _).1
  | allocate l => exact fun s a s' hrun => (allocate_run_ok hrun).2
  | allocateZeroed l => exact fun s a s' hrun => (allocateZeroed_run_ok hrun).2
  | deallocate h l =>
    show Act.Keeps SameCapacity (deallocate h l)
    unfold deallocate bump
    refine (Act.Keeps.modify fun s => ?_).bind fun _ => Act.Keeps.modify fun s => ?_ <;> rfl
  | resize form h old new => exact fun s a s' hrun => (resizeWith_run_ok hrun).2

theorem agrees_run {s : InlineStore} {sl : Slice Unit} (ha : sl.Agrees s) (call : Storage.Call Unit)
    (hans : (call.op (σ := InlineStore)).Answers s) :
    sl.Agrees ((call.op (σ := InlineStore)).run s) := by
  obtain ⟨a, s', hrun⟩ := hans
  obtain ⟨n, hn, hlen⟩ := ha
  rw [run_sizeOf] at hn
  cases hn
  rw [Op.run, Act.leaves_of_ok hrun]
  exact ⟨s.capacityBytes, by rw [run_sizeOf, call_keeps call s a s' hrun], hlen⟩

/-- A buffer that can be made has a size that is not negative: the element count is bounded so
    that the buffer holds at most `maxBytes`. -/
theorem create_capacityBytes {e : Elem} {capacity : Int64} {s : InlineStore}
    (h : create e capacity = .ok s) : 0 ≤ s.capacityBytes.toInt := by
  unfold create at h
  split at h
  · cases h
  · cases h
    rename_i hc
    simp only [Bool.or_eq_true, decide_eq_true_eq, Bool.and_eq_true, not_or, not_and,
      Int64.not_lt] at hc
    obtain ⟨hcap, hfit⟩ := hc
    have hcap' : 0 ≤ capacity.toInt := Int64.le_iff_toInt_le.1 hcap
    show 0 ≤ (e.size * capacity).toInt
    by_cases hz : e.isZeroSized = true
    · have h0 := Elem.size_of_zeroSized hz
      rw [h0, Int64.zero_mul]
      decide
    · have hpos := Elem.size_pos (Bool.eq_false_iff.2 hz)
      have hle := Int64.le_iff_toInt_le.1 (hfit (Int64.lt_iff_toInt_lt.2 hpos))
      rw [Word.toInt_div_of_nonneg (by decide) hpos] at hle
      have hmax : maxBytes.toInt = 281474976710656 := rfl
      rw [hmax] at hle
      -- the count is at most `maxBytes / size`, so the bytes are at most `maxBytes`
      have hprod : e.size.toInt * capacity.toInt ≤ 281474976710656 :=
        calc e.size.toInt * capacity.toInt
            ≤ e.size.toInt * (281474976710656 / e.size.toInt) :=
              Int.mul_le_mul_of_nonneg_left hle hpos.le
          _ ≤ 281474976710656 := Int.mul_ediv_self_le (by omega)
      rw [Word.toInt_mul_of_fits ⟨by nlinarith, by omega⟩]
      exact Int.mul_nonneg hpos.le hcap'

end InlineStore

/-! ## Remembering sizes -/

namespace Sized

variable {σ H : Type}

/-- Two states that remember the same size. -/
def SameSize (s s' : Sized σ) : Prop := s'.size = s.size

instance : Std.Refl (SameSize (σ := σ)) := ⟨fun _ => rfl⟩

instance : IsTrans (Sized σ) SameSize := ⟨fun _ _ _ h₁ h₂ => h₂.trans h₁⟩

theorem onInner_keeps {α : Type} (act : Act σ α) : Act.Keeps SameSize (onInner act) := by
  intro s a s' hrun
  rw [onInner, Act.run_focus] at hrun
  cases hact : act.run s.inner with
  | ok b t =>
    rw [hact] at hrun
    cases hrun
    rfl
  | error f t =>
    rw [hact] at hrun
    cases hrun

theorem record_run_ok {act : Act σ (H × Int64)} {s s' : Sized σ} {a : H × Int64}
    (hrun : (record act).run s = .ok a s') : s'.size = a.2 := by
  unfold record at hrun
  obtain ⟨r, s₁, -, hrun⟩ := Act.run_bind_eq_ok hrun
  rw [Act.run_bind_ok (Act.run_modify _ _)] at hrun
  cases hrun
  rfl

theorem records [Storage σ H] : Storage.Records (Sized σ) fun _ => True where
  allocate l s a s' _ hrun := by
    show (do pure (← get).size : Act (Sized σ) Int64).run s' = _
    rw [← record_run_ok hrun]
    rfl
  allocateZeroed l s a s' _ hrun := by
    obtain ⟨s₁, halloc, hsame⟩ := Act.allocateZeroed_run_ok (fun h => onInner_keeps _)
      (fun _ _ => rfl) hrun
    show (do pure (← get).size : Act (Sized σ) Int64).run s' = _
    rw [← record_run_ok halloc, ← hsame]
    rfl
  resizeWith form h old new s a s' _ hrun := by
    show (do pure (← get).size : Act (Sized σ) Int64).run s' = _
    rw [← record_run_ok hrun]
    rfl

end Sized

/-! ## The two kinds of run agree -/

/-- A run's length and the size its storage records agree. A run allocated, or resized in any
    form, on a storage that records the usable size it reports has that size, in whole elements,
    as its length; block storages (well-formed), inline storages and every storage that
    remembers sizes record what they report. The agreement survives every call that only looks,
    every answered call on a block storage that does not name the run's handle (a compaction
    included) and every answered call on an inline storage. A run that agrees reads the same
    length and resolves to the same view as the `Sliced` handle made of its raw parts, and frees
    with a layout no larger than the recorded size; the sizes a well-formed block storage and an
    inline storage that was made record are never negative. -/
theorem slice_lengths_agree :
    (∀ {σ H : Type} [Storage σ H] (I : σ → Prop), Storage.Records σ I → ∀ s : σ, I s →
      (∀ (e : Elem) (count : Int64) (zeroed : Bool) (sl : Slice H) (s' : σ),
        e.isZeroSized = false →
        (Slice.tryAllocate e count zeroed : Act σ (Slice H)).run s = .ok sl s' →
          sl.elem = e ∧ sl.Agrees s') ∧
      (∀ (sl sl' : Slice H) (newLen : Int64) (form : ResizeForm) (s' : σ),
        sl.elem.isZeroSized = false →
        (sl.tryResize newLen form : Act σ (Slice H)).run s = .ok sl' s' →
          sl'.elem = sl.elem ∧ sl'.Agrees s')) ∧
    Storage.Records BlockStore BlockStore.WellFormed ∧
    Storage.Records InlineStore (fun _ => True) ∧
    (∀ {σ H : Type} [Storage σ H], Storage.Records (Sized σ) (fun _ => True)) ∧
    (∀ {σ H : Type} [Storage σ H] {α : Type} (sl : Slice H) (s : σ) (x : Act σ α),
      sl.Agrees s → Act.Inert x → sl.Agrees (Act.leaves x s)) ∧
    (∀ (s : BlockStore) (sl : Slice UInt64) (e : BlockEntry) (c : StoreCall), s.WellFormed →
      sl.Agrees s → s.entries.lookup sl.raw = some e → c.handle? ≠ some sl.raw →
        c.op.Answers s → sl.Agrees (c.run s)) ∧
    (∀ (s : InlineStore) (sl : Slice Unit) (call : Storage.Call Unit), sl.Agrees s →
      (call.op (σ := InlineStore)).Answers s → sl.Agrees ((call.op (σ := InlineStore)).run s)) ∧
    (∀ {σ H : Type} [Storage σ H] (sl : Slice H) (s : σ),
      (∀ h : H, Act.Reads (Storage.resolve h : Act σ Addr)) → sl.elem.isZeroSized = false →
      sl.Agrees s →
        (Sliced.len ⟨sl.elem, sl.raw⟩ : Act σ Int64).run s = .ok sl.len s ∧
        (Sliced.resolve ⟨sl.elem, sl.raw⟩ : Act σ View).run s = (sl.resolve : Act σ View).run s) ∧
    (∀ {σ H : Type} [Storage σ H] (sl : Slice H) (s : σ), sl.elem.isZeroSized = false →
      sl.Agrees s →
        (sl.deallocate : Act σ Unit) =
          Storage.deallocate sl.raw ⟨sl.len * sl.elem.size, sl.elem.align⟩ ∧
        ∀ n, (Handle.sizeOf sl.raw : Act σ Int64).run s = .ok n s → 0 ≤ n.toInt →
          0 ≤ (sl.len * sl.elem.size).toInt ∧ (sl.len * sl.elem.size).toInt ≤ n.toInt) ∧
    (∀ (s : BlockStore) (h : UInt64) (e : BlockEntry), s.WellFormed →
      s.entries.lookup h = some e →
        (BlockStore.resolveSize h).run s = .ok e.size s ∧ 0 ≤ e.size.toInt) ∧
    (∀ (e : Elem) (capacity : Int64) (s : InlineStore),
      InlineStore.create e capacity = .ok s → 0 ≤ s.capacityBytes.toInt) ∧
    (∀ call : Storage.Call Unit,
      Act.Keeps InlineStore.SameCapacity (call.op (σ := InlineStore)).act) :=
  ⟨fun _ hr _ hs => ⟨fun _ _ _ _ _ he hrun => Slice.tryAllocate_agrees hr hs he hrun,
      fun _ _ _ _ _ he hrun => Slice.tryResize_agrees hr hs he hrun⟩,
    BlockStore.records, InlineStore.records, Sized.records,
    fun _ _ _ ha hx => ha.of_inert hx,
    fun _ _ _ _ hw ha hl hc hans => BlockStore.agrees_run hw ha hl hc hans,
    fun _ _ call ha hans => InlineStore.agrees_run ha call hans,
    fun _ _ hresolve he ha => ha.sliced hresolve he,
    fun _ _ he ha => ha.deallocate he,
    fun _ _ _ hw hl => ⟨hw.resolveSize_run hl, hw.size_nonneg hl⟩,
    fun _ _ _ h => InlineStore.create_capacityBytes h,
    InlineStore.call_keeps⟩

/-- Three-byte elements on an eight-byte inline buffer: the run gets the whole buffer, two whole
    elements of it, and that is the length the buffer's recorded size gives. -/
theorem inline_slice_length_agrees :
    (Slice.tryAllocate .b3 2 false : Act InlineStore (Slice Unit)).run
        { elem := .u8, capacity := 8, bytes := ⟨#[0, 0, 0, 0, 0, 0, 0, 0]⟩ } =
      .ok ⟨.b3, (), 2⟩
        { elem := .u8, capacity := 8, bytes := ⟨#[0, 0, 0, 0, 0, 0, 0, 0]⟩, allocated := true,
          epoch := 1 } ∧
    (⟨.b3, (), 2⟩ : Slice Unit).Agrees (σ := InlineStore)
      { elem := .u8, capacity := 8, bytes := ⟨#[0, 0, 0, 0, 0, 0, 0, 0]⟩, allocated := true,
        epoch := 1 } := by
  have hrun : (Slice.tryAllocate .b3 2 false : Act InlineStore (Slice Unit)).run
      { elem := .u8, capacity := 8, bytes := ⟨#[0, 0, 0, 0, 0, 0, 0, 0]⟩ } =
      .ok ⟨.b3, (), 2⟩
        { elem := .u8, capacity := 8, bytes := ⟨#[0, 0, 0, 0, 0, 0, 0, 0]⟩, allocated := true,
          epoch := 1 } := rfl
  exact ⟨hrun, ((slice_lengths_agree.1 (fun _ => True) InlineStore.records _ trivial).1
    .b3 2 false _ _ rfl hrun).2⟩

end BlockArena
