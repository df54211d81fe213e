import BlockArena.Proofs.Ownership

/-! # Runs that read the size they were granted

A `Sliced` handle keeps no length: it reads the usable size that its storage records and frees
itself with it, and resizes from the whole elements in it. Over an address storage, the
storage that remembers the size of its one allocation (`Sized`) records the bytes of the run
it was granted. This module follows a client that keeps one allocation at a time on such a
storage, making `Sliced` handles, freeing and resizing them in any form, and proves that every
free and every resize it makes names a layout that asks for exactly the blocks of the run it
holds (`Sized.run_ownedOne`).
-/

set_option autoImplicit false

namespace BlockArena

open Session (Held)

namespace Sized

/-! ## The wrapper's requests -/

section Wrapper

variable {σ H : Type}

theorem record_run (act : Act σ (H × Int64)) (s : Sized σ) :
    (record act).run s = match act.run s.inner with
      | .ok a t => .ok a ⟨t, a.2⟩
      | .error f t => .error f { s with inner := t } := by
  unfold record onInner
  cases h : act.run s.inner with
  | ok a t =>
    have hin : (Act.focus (·.inner) (fun s i => { s with inner := i }) act).run s =
        .ok a { s with inner := t } := by
      rw [Act.run_focus, h]
    rw [Act.run_bind_ok hin]
    rfl
  | error f t =>
    have hin : (Act.focus (·.inner) (fun s i => { s with inner := i }) act).run s =
        .error f { s with inner := t } := by
      rw [Act.run_focus, h]
    exact Act.run_bind_error hin

variable [Storage σ H]

theorem deallocate_run (h : H) (l : Layout) (s : Sized σ) :
    (Storage.deallocate h l : Act (Sized σ) Unit).run s =
      match (Storage.deallocate h l : Act σ Unit).run s.inner with
      | .ok u t => .ok u ⟨t, 0⟩
      | .error f t => .error f { s with inner := t } := by
  show (do onInner (Storage.deallocate h l); modify fun s => { s with size := 0 } :
    Act (Sized σ) Unit).run s = _
  unfold onInner
  cases hd : (Storage.deallocate h l : Act σ Unit).run s.inner with
  | ok u t =>
    have hin : (Act.focus (·.inner) (fun s i => { s with inner := i })
        (Storage.deallocate h l : Act σ Unit)).run s = .ok u { s with inner := t } := by
      rw [Act.run_focus, hd]
    rw [Act.run_bind_ok hin]
    rfl
  | error f t =>
    have hin : (Act.focus (·.inner) (fun s i => { s with inner := i })
        (Storage.deallocate h l : Act σ Unit)).run s = .error f { s with inner := t } := by
      rw [Act.run_focus, hd]
    exact Act.run_bind_error hin

theorem sizeOf_run (h : H) (s : Sized σ) :
    (Handle.sizeOf h : Act (Sized σ) Int64).run s = .ok s.size s := rfl

end Wrapper

/-! ## Over an address storage -/

section Address

variable {s : Sized AddressStore} {live : List Extent}

theorem zero_run {p : Addr} {lo hi : Int64} {m : Space}
    (h : Memory.clear s.inner.space p lo hi = .ok m) :
    (Storage.zero p lo hi : Act (Sized AddressStore) Unit).run s =
      .ok () { s with inner := s.inner.withSpace m } := by
  have h' : Memory.clear (Storage.memory s) p lo hi = .ok m := h
  simp only [Storage.zero, EStateM.run, bind, EStateM.bind, get, getThe, MonadStateOf.get,
    EStateM.get, Act.ofExcept, h', modify, modifyGet, MonadStateOf.modifyGet, EStateM.modifyGet,
    pure, EStateM.pure]
  rfl

/-- An allocation, cleared or not, of a layout that rounds up to whole blocks refuses with the
    arena as it was, or answers the address of a fresh run of the blocks the layout asks for,
    with their bytes, which the storage remembers. -/
theorem grant_cases (ht : Tracks s.inner.arena live) {l : Layout} (hl : s.inner.arena.Sized l)
    (zeroed : Bool) :
    (∃ f s', (if zeroed then Storage.allocateZeroed l else Storage.allocate l :
        Act (Sized AddressStore) (Addr × Int64)).run s = .error f s' ∧
        s'.inner.arena = s.inner.arena) ∨
    ∃ (y : Extent) (s' : Sized AddressStore),
      (if zeroed then Storage.allocateZeroed l else Storage.allocate l :
        Act (Sized AddressStore) (Addr × Int64)).run s =
        .ok (.offset (y.addr s.inner.arena).toInt,
          s.inner.arena.blocksFor l.size * s.inner.arena.blockSize) s' ∧
      s.inner.arena.SameBlocks s'.inner.arena ∧ Tracks s'.inner.arena (y :: live) ∧
      (y.count : Int) = (s.inner.arena.blocksFor l.size).toInt ∧
      s'.size = s.inner.arena.blocksFor l.size * s.inner.arena.blockSize := by
  have hrec := record_run (Storage.allocate l : Act AddressStore (Addr × Int64)) s
  rcases AddressStore.grant_cases ht hl false with ⟨f, hf⟩ | ⟨y, t, hrun, hsame, ht', hcount⟩
  · simp only [Bool.false_eq_true, ite_false] at hf
    rw [hf] at hrec
    have hrec' : (Storage.allocate l : Act (Sized AddressStore) (Addr × Int64)).run s =
        .error f { s with inner := { s.inner with epoch := s.inner.epoch + 1 } } := hrec
    cases zeroed with
    | false => exact .inl ⟨f, _, hrec', rfl⟩
    | true => exact .inl ⟨f, _, Act.run_bind_error hrec', rfl⟩
  simp only [Bool.false_eq_true, ite_false] at hrun
  rw [hrun] at hrec
  have hrec' : (Storage.allocate l : Act (Sized AddressStore) (Addr × Int64)).run s =
      .ok (.offset (y.addr s.inner.arena).toInt,
        s.inner.arena.blocksFor l.size * s.inner.arena.blockSize)
        ⟨t, s.inner.arena.blocksFor l.size * s.inner.arena.blockSize⟩ := hrec
  cases zeroed with
  | false => exact .inr ⟨y, _, hrec', hsame, ht', hcount, rfl⟩
  | true =>
    have hbytes := ht'.grant_bytes List.mem_cons_self (m := l.size)
      (by rw [hsame.blocksFor_eq]; exact hcount)
    simp only [hsame.blocksFor_eq, hsame.blockSize_eq] at hbytes
    obtain ⟨m, hclear, ht'', hsame', -⟩ := @AddressStore.clear_inside _ _ ht' _ List.mem_cons_self
      0 (s.inner.arena.blocksFor l.size * s.inner.arena.blockSize) (by decide)
      (by rw [hbytes, hsame.blockSize_eq])
    rw [hsame.addr_eq] at hclear
    refine .inr ⟨y, ⟨t.withSpace m, s.inner.arena.blocksFor l.size * s.inner.arena.blockSize⟩, ?_,
      hsame.trans hsame', ht'', hcount, rfl⟩
    show (Storage.allocateZeroed l : Act (Sized AddressStore) (Addr × Int64)).run s = _
    unfold Storage.allocateZeroed
    rw [Act.run_bind_ok hrec']
    dsimp only
    have hres : (Storage.resolve (.offset (y.addr s.inner.arena).toInt) :
        Act (Sized AddressStore) Addr).run
        ⟨t, s.inner.arena.blocksFor l.size * s.inner.arena.blockSize⟩ =
        .ok (.offset (y.addr s.inner.arena).toInt)
          ⟨t, s.inner.arena.blocksFor l.size * s.inner.arena.blockSize⟩ := rfl
    rw [Act.run_bind_ok hres, Act.run_bind_ok (zero_run (s := ⟨t, _⟩) hclear)]
    rfl

end Address

/-! ## What a `Sliced` handle holds -/

/-- What a handle holds on a storage that remembers the size of its one allocation, over an
    address storage: a `Sliced` handle holds nothing, for zero-sized elements, or the run its
    address names, whose bytes the storage remembers and whose blocks the whole elements in
    those bytes ask for. -/
def Owns (s : Sized AddressStore) : Held Addr → Option Extent → Prop
  | .sliced sl, none => sl.elem.isZeroSized = true
  | .sliced sl, some x => sl.elem.isZeroSized = false ∧
      sl.raw = .offset (x.addr s.inner.arena).toInt ∧
      s.size.toInt = x.count * s.inner.arena.blockSize.toInt ∧
      (s.inner.arena.blocksFor (sl.elem.size * (s.size / sl.elem.size))).toInt = x.count
  | _, _ => False

/-- The handles of a client that keeps one allocation at a time: none, and the arena tracks no
    run; or one, which holds exactly the runs the arena tracks. -/
def OwnedOne (s : Sized AddressStore) : List (Held Addr) → Prop
  | [] => Tracks s.inner.arena []
  | [h] => ∃ r, Owns s h r ∧ Tracks s.inner.arena r.toList
  | _ => False

section Requests

variable {s : Sized AddressStore}

theorem Owns.congr {s' : Sized AddressStore} (harena : s'.inner.arena = s.inner.arena)
    (hsize : s'.size = s.size) {h : Held Addr} {r : Option Extent} (hown : Owns s h r) :
    Owns s' h r := by
  cases h <;> cases r <;> simp only [Owns, harena, hsize] at hown ⊢ <;> exact hown

theorem dangling_run (align : UInt64) :
    (Storage.dangling align : Act (Sized AddressStore) Addr).run s =
      match Addr.danglingFor align with
      | .ok p => .ok p s
      | .error f => .error f s := by
  show (onInner (Act.ofExcept (Addr.danglingFor align) : Act AddressStore Addr)).run s = _
  unfold onInner
  rw [Act.run_focus]
  cases Addr.danglingFor align <;> rfl

/-- A `Sliced` run of `count` elements whose bytes round up to whole blocks without overflow,
    made on a storage whose arena tracks no run, holds a fresh run of the blocks the array asks
    for, whose bytes the storage remembers; or none, for zero-sized elements. -/
theorem slicedAllocate_cases (ht : Tracks s.inner.arena []) (e : Elem) (count : Int64)
    (zeroed : Bool)
    (hfit : e.size.toInt * count.toInt + s.inner.arena.blockSize.toInt - 1 ≤ Word.maxInt.toInt) :
    (∃ f s', (Sliced.tryAllocate e count zeroed : Act (Sized AddressStore) (Sliced Addr)).run s =
      .error f s' ∧ Tracks s'.inner.arena []) ∨
    ∃ sl s' r, (Sliced.tryAllocate e count zeroed : Act (Sized AddressStore) (Sliced Addr)).run s =
      .ok sl s' ∧ Owns s' (.sliced sl) r ∧ Tracks s'.inner.arena r.toList := by
  have hbs := ht.geometry.blockSize_pos
  unfold Sliced.tryAllocate
  cases harr : Layout.array e.layout count with
  | error f => exact .inl ⟨f, s, Act.run_bind_error (Act.run_ofExcept_error f s), ht⟩
  | ok l =>
    obtain ⟨rfl, hsize, hsz⟩ := Arena.sized_array harr hfit hbs
    rw [Act.run_bind_ok (Act.run_ofExcept_ok _ s)]
    dsimp only
    by_cases hz : e.isZeroSized = true
    · -- the dangling run holds no run
      rw [if_pos hz]
      unfold Sliced.tryDangling
      cases hp : Addr.danglingFor e.align with
      | ok p =>
        have hd : (Storage.dangling e.align : Act (Sized AddressStore) Addr).run s = .ok p s := by
          rw [dangling_run, hp]
        exact .inr ⟨⟨e, p⟩, s, none, by rw [Act.run_bind_ok hd]; rfl, hz, ht⟩
      | error f =>
        have hd : (Storage.dangling e.align : Act (Sized AddressStore) Addr).run s =
            .error f s := by
          rw [dangling_run, hp]
        exact .inl ⟨f, s, Act.run_bind_error hd, ht⟩
    · rw [if_neg hz, AddressStore.run_ite_bind]
      rcases grant_cases ht hsz zeroed with
        ⟨f, s', hf, harena⟩ | ⟨y, s', hrun, hsame, ht', hcount, hsize'⟩
      · exact .inl ⟨f, s', Act.run_bind_error hf, by rw [harena]; exact ht⟩
      -- the storage remembers the bytes of the granted run, whose whole elements ask for it all
      have he := Elem.size_pos (Bool.eq_false_iff.2 hz)
      have hy : y ∈ [y] := List.mem_cons_self
      have hbytes := ht'.grant_bytes hy (m := e.size * count)
        (by rw [hsame.blocksFor_eq]; exact hcount)
      obtain ⟨-, -, hblocks⟩ := ht'.whole_elems hy (m := e.size * count)
        hsz.1 (by rw [hsame.blockSize_eq]; exact hsz.2) he
        (by rw [hsize]; exact Dvd.intro _ rfl) (by rw [hsame.blocksFor_eq]; exact hcount)
      simp only [hsame.blocksFor_eq, hsame.blockSize_eq] at hbytes hblocks
      refine .inr ⟨⟨e, _⟩, s', some y, by rw [Act.run_bind_ok hrun]; rfl,
        ⟨Bool.eq_false_iff.2 hz, by rw [hsame.addr_eq], ?_, ?_⟩, ht'⟩
      · rw [hsize', hsame.blockSize_eq]
        exact hbytes
      · rw [hsize', hsame.blocksFor_eq, Int64.mul_comm]
        exact hblocks

/-- Freeing a held handle gives back the run it holds, with the size the storage remembers,
    which asks for exactly its blocks; the arena then tracks no run. -/
theorem Owns.free {h : Held Addr} {r : Option Extent} (hown : Owns s h r)
    (ht : Tracks s.inner.arena r.toList) :
    ∃ s', (h.deallocate : Act (Sized AddressStore) Unit).run s = .ok () s' ∧
      Tracks s'.inner.arena [] := by
  cases h with
  | sliced sl =>
    cases r with
    | none =>
      refine ⟨s, ?_, ht⟩
      simp only [Held.deallocate, Sliced.deallocate, show sl.elem.isZeroSized = true from hown,
        ite_true, Act.run_pure]
    | some x =>
      obtain ⟨hz, hraw, hsize, -⟩ := hown
      replace ht : Tracks s.inner.arena [x] := ht
      have hl := ht.blocksFor_bytes List.mem_cons_self hsize
      obtain ⟨a', hrun, -, ht', -⟩ :=
        AddressStore.deallocate_ok ht List.mem_cons_self (l := ⟨s.size, sl.elem.align⟩) hl
      rw [← hraw] at hrun
      have hrun' : (Storage.deallocate sl.raw ⟨s.size, sl.elem.align⟩ : Act AddressStore Unit).run
          s.inner = .ok () { s.inner with epoch := s.inner.epoch + 1, arena := a' } := hrun
      refine ⟨⟨{ s.inner with epoch := s.inner.epoch + 1, arena := a' }, 0⟩, ?_, ?_⟩
      · simp only [Held.deallocate, Sliced.deallocate, hz, Bool.false_eq_true, ite_false]
        rw [Act.run_bind_ok (sizeOf_run sl.raw s), deallocate_run, hrun']
      · rwa [List.erase_cons_head] at ht'
  | typed _ => exact hown.elim
  | slice _ => exact hown.elim
  | unique _ => exact hown.elim
  | uslice _ => exact hown.elim

/-- A held `Sliced` run frees with the size the storage remembers, and a resize frees it with
    the array of the whole elements in that size: both ask for exactly the blocks of its run. -/
theorem Owns.layouts_blocks {sl : Sliced Addr} {x : Extent} (hown : Owns s (.sliced sl) (some x))
    (ht : Tracks s.inner.arena [x]) :
    (s.inner.arena.blocksFor s.size).toInt = x.count ∧
      ∀ old : Layout, Layout.array sl.elem.layout (s.size / sl.elem.size) = .ok old →
        (s.inner.arena.blocksFor old.size).toInt = x.count := by
  obtain ⟨-, -, hsize, hblocks⟩ := hown
  refine ⟨ht.blocksFor_bytes List.mem_cons_self hsize, fun old hold => ?_⟩
  obtain ⟨-, rfl⟩ := Layout.array_eq_ok hold
  exact hblocks

/-- A `Sliced` handle of elements that take room reads its length as the whole elements in the
    size its storage records. -/
theorem len_run {σ : Type} [Storage σ Addr] {sl : Sliced Addr} {n : Int64} {t : σ}
    (hz : sl.elem.isZeroSized = false)
    (hsize : (Handle.sizeOf sl.raw : Act σ Int64).run t = .ok n t) :
    (sl.len : Act σ Int64).run t = .ok (n / sl.elem.size) t := by
  simp only [Sliced.len, hz, Bool.false_eq_true, ite_false]
  rw [Act.run_bind_ok hsize]
  rfl

/-- A resize of a `Sliced` run whose old or new array check refuses aborts before the storage
    sees it. -/
theorem tryResize_refused {σ : Type} [Storage σ Addr] {sl : Sliced Addr} {len n : Int64}
    (form : ResizeForm) {t : σ} {f : Fault} (hz : sl.elem.isZeroSized = false)
    (hsize : (Handle.sizeOf sl.raw : Act σ Int64).run t = .ok n t)
    (hcheck : Layout.array sl.elem.layout (n / sl.elem.size) = .error f ∨
      ∃ old, Layout.array sl.elem.layout (n / sl.elem.size) = .ok old ∧
        Layout.array sl.elem.layout len = .error f) :
    (sl.tryResize len form : Act σ (Sliced Addr)).run t = .error f t := by
  unfold Sliced.tryResize
  rw [Act.run_bind_ok (len_run hz hsize)]
  rcases hcheck with hold | ⟨old, hold, hnew⟩
  · simp only [Handle.resizeElems, hz, Bool.false_eq_true, ite_false, hold, Act.ofExcept,
      bind_assoc]
    rfl
  · simp only [Handle.resizeElems, hz, Bool.false_eq_true, ite_false, hold, hnew, Act.ofExcept,
      pure_bind, bind_assoc]
    rfl

/-- Past the two array checks, resizing a `Sliced` run of elements that take room is the
    storage's own resize in bytes, from the array of the whole elements in the size it records
    to the array of the new length. -/
theorem tryResize_run {σ : Type} [Storage σ Addr] {sl : Sliced Addr} {len n : Int64}
    (form : ResizeForm) {old new : Layout} {t : σ} (hz : sl.elem.isZeroSized = false)
    (hsize : (Handle.sizeOf sl.raw : Act σ Int64).run t = .ok n t)
    (hold : Layout.array sl.elem.layout (n / sl.elem.size) = .ok old)
    (hnew : Layout.array sl.elem.layout len = .ok new) :
    (sl.tryResize len form : Act σ (Sliced Addr)).run t =
      ((Storage.resizeWith
          { form with region := form.region.map (fun r : Region => r.scale sl.elem.size) }
          sl.raw old new : Act σ (Addr × Int64)) >>=
        fun p => pure { sl with raw := p.1 }).run t := by
  unfold Sliced.tryResize
  rw [Act.run_bind_ok (len_run hz hsize)]
  simp only [Handle.resizeElems, hz, Bool.false_eq_true, ite_false, hold, hnew, Act.ofExcept,
    pure_bind, bind_assoc]

/-- Resizing a held `Sliced` run, to `len` elements whose bytes round up to whole blocks without
    overflow, in a form whose region fits the whole elements in the remembered size: the old run
    is freed with the array of those elements, which asks for exactly its blocks, and the new one
    is remembered, with bytes whose whole elements ask for all its blocks again. A refusal leaves
    the arena and the remembered size as they were. -/
theorem Owns.resize_cases {sl : Sliced Addr} {r : Option Extent} (hown : Owns s (.sliced sl) r)
    (ht : Tracks s.inner.arena r.toList) {len : Int64} {form : ResizeForm}
    (hfit : sl.elem.size.toInt * len.toInt + s.inner.arena.blockSize.toInt - 1 ≤
      Word.maxInt.toInt)
    (hform : form.Fits (s.size / sl.elem.size) len) :
    (∃ f s', (sl.tryResize len form : Act (Sized AddressStore) (Sliced Addr)).run s = .error f s' ∧
      s'.inner.arena = s.inner.arena ∧ s'.size = s.size) ∨
    ∃ sl' s' r', (sl.tryResize len form : Act (Sized AddressStore) (Sliced Addr)).run s =
      .ok sl' s' ∧ Owns s' (.sliced sl') r' ∧ Tracks s'.inner.arena r'.toList := by
  have hbs := ht.geometry.blockSize_pos
  cases r with
  | none =>
    right
    refine ⟨sl, s, none, ?_, hown, ht⟩
    simp only [Sliced.tryResize, Sliced.len, Handle.resizeElems,
      show sl.elem.isZeroSized = true from hown, ite_true, pure_bind]
    rfl
  | some x =>
    obtain ⟨hz, hraw, hsize, hblocks⟩ := hown
    have he := Elem.size_pos hz
    replace ht : Tracks s.inner.arena [x] := ht
    have hx : x ∈ [x] := List.mem_cons_self
    have hroom := ht.run_room hx
    rw [Word.maxInt_toInt] at hroom hfit
    have hs0 : 0 ≤ s.size.toInt := by
      rw [hsize]
      exact Int.mul_nonneg (Int.natCast_nonneg _) hbs.le
    have hq := Word.toInt_div_of_nonneg hs0 he
    have hq0 : 0 ≤ (s.size / sl.elem.size).toInt := by
      rw [hq]
      exact Int.ediv_nonneg hs0 he.le
    have hqe : sl.elem.size.toInt * (s.size / sl.elem.size).toInt ≤
        x.count * s.inner.arena.blockSize.toInt := by
      rw [hq, ← hsize, Int.mul_comm]
      exact Int.ediv_mul_le _ he.ne'
    cases hold : Layout.array sl.elem.layout (s.size / sl.elem.size) with
    | error f =>
      exact .inl ⟨f, s, tryResize_refused form hz (sizeOf_run sl.raw s) (.inl hold), rfl, rfl⟩
    | ok old =>
    cases hnew : Layout.array sl.elem.layout len with
    | error f =>
      exact .inl ⟨f, s, tryResize_refused form hz (sizeOf_run sl.raw s) (.inr ⟨old, hold, hnew⟩),
        rfl, rfl⟩
    | ok new =>
    obtain ⟨-, rfl⟩ := Layout.array_eq_ok hold
    replace hold : Layout.array sl.elem.layout (s.size / sl.elem.size) =
        .ok ⟨sl.elem.size * (s.size / sl.elem.size), sl.elem.align⟩ := hold
    obtain ⟨rfl, hnsize, hnsz⟩ := Arena.sized_array hnew (by rw [Word.maxInt_toInt]; exact hfit) hbs
    have hlen0 := (Layout.array_eq_ok hnew).1
    have hpeel := tryResize_run form hz (sizeOf_run sl.raw s) hold hnew
    have hr := hform.kept_within_run he hq0 hlen0 (by rw [Word.maxInt_toInt]; omega)
      (by rw [Word.maxInt_toInt]; have := Int.mul_nonneg (Elem.size_nonneg sl.elem) hlen0; omega)
      hqe sl.elem.align
    rw [hraw] at hpeel
    rcases AddressStore.resizeWith_cases ht hx (by exact hblocks) hnsz hr with
      ⟨f, hf⟩ | ⟨y, n, s₁, hrun, -, rfl, hcount, hm⟩
    · -- the wrapper forgets nothing when the wrapped resize refuses
      refine .inl ⟨f, { s with inner := { s.inner with epoch := s.inner.epoch + 1 } }, ?_, rfl, rfl⟩
      rw [hpeel]
      refine Act.run_bind_error ?_
      show (record (Storage.resizeWith _ _ _ _ : Act AddressStore (Addr × Int64))).run s = _
      rw [record_run, hf]
    have hrec : (Storage.resizeWith
        { form with region := form.region.map (fun r : Region => r.scale sl.elem.size) }
        (.offset (x.addr s.inner.arena).toInt)
        ⟨sl.elem.size * (s.size / sl.elem.size), sl.elem.align⟩ ⟨sl.elem.size * len, sl.elem.align⟩ :
        Act (Sized AddressStore) (Addr × Int64)).run s =
        .ok (.offset (y.addr s.inner.arena).toInt,
          s.inner.arena.blocksFor (sl.elem.size * len) * s.inner.arena.blockSize)
          ⟨s₁, s.inner.arena.blocksFor (sl.elem.size * len) * s.inner.arena.blockSize⟩ := by
      show (record (Storage.resizeWith _ _ _ _ : Act AddressStore (Addr × Int64))).run s = _
      rw [record_run, hrun]
    have hsame := hm.sameBlocks
    have ht' : Tracks s₁.arena [y] := hm.tracks_head
    have hy : y ∈ [y] := List.mem_cons_self
    have hbytes := ht'.grant_bytes hy (m := sl.elem.size * len)
      (by rw [hsame.blocksFor_eq]; exact hcount)
    obtain ⟨-, -, hblocks'⟩ := ht'.whole_elems hy (m := sl.elem.size * len)
      hnsz.1 (by rw [hsame.blockSize_eq]; exact hnsz.2) he
      (by rw [hnsize]; exact Dvd.intro _ rfl) (by rw [hsame.blocksFor_eq]; exact hcount)
    simp only [hsame.blocksFor_eq, hsame.blockSize_eq] at hbytes hblocks'
    refine .inr ⟨{ sl with raw := .offset (y.addr s.inner.arena).toInt },
      ⟨s₁, s.inner.arena.blocksFor (sl.elem.size * len) * s.inner.arena.blockSize⟩, some y,
      by rw [hpeel, Act.run_bind_ok hrec]; rfl, ⟨hz, by rw [hsame.addr_eq], ?_, ?_⟩, ht'⟩
    · show (s.inner.arena.blocksFor (sl.elem.size * len) * s.inner.arena.blockSize).toInt = _
      rw [hsame.blockSize_eq]
      exact hbytes
    · show (s₁.arena.blocksFor (sl.elem.size *
        (s.inner.arena.blocksFor (sl.elem.size * len) * s.inner.arena.blockSize / sl.elem.size))).toInt = _
      rw [hsame.blocksFor_eq, Int64.mul_comm]
      exact hblocks'

end Requests

/-! ## Every request -/

/-- What a client that keeps one allocation at a time promises of a request on a storage that
    remembers sizes, over an address storage, holding `hs`: it makes `Sliced` handles only, and
    only when it holds none, for elements whose bytes round up to whole blocks without overflow;
    a resize asks for such a count and keeps a region that fits the whole elements in the
    remembered size. -/
def AllowedOne (s : Sized AddressStore) (hs : List (Held Addr)) : HandleCall → Prop
  | .sliced e count _ => hs = [] ∧
    e.size.toInt * count.toInt + s.inner.arena.blockSize.toInt - 1 ≤ Word.maxInt.toInt
  | .free _ => True
  | .resize i len form => ∀ sl, hs[i]? = some (.sliced sl) →
    sl.elem.size.toInt * len.toInt + s.inner.arena.blockSize.toInt - 1 ≤ Word.maxInt.toInt ∧
      form.Fits (s.size / sl.elem.size) len
  | _ => False

/-- The client keeps that promise through a sequence of requests. -/
def ObeysOne : List HandleCall → Sized AddressStore → List (Held Addr) → Prop
  | [], _, _ => True
  | c :: cs, s, hs => AllowedOne s hs c ∧ ObeysOne cs (c.step s hs).1 (c.step s hs).2

section Every

variable {s : Sized AddressStore} {hs : List (Held Addr)}

/-- Every request such a client makes keeps its handle, if it holds one, holding exactly the
    run the arena tracks. -/
theorem step_ownedOne {c : HandleCall} (ho : OwnedOne s hs) (hc : AllowedOne s hs c) :
    OwnedOne (c.step s hs).1 (c.step s hs).2 := by
  cases c with
  | sliced e count zeroed =>
    obtain ⟨rfl, hfit⟩ := hc
    simp only [HandleCall.step, HandleCall.hold]
    rcases slicedAllocate_cases ho e count zeroed hfit with
      ⟨f, s', hrun, ht'⟩ | ⟨sl, s', r, hrun, hown, ht'⟩
    · rw [hrun]
      exact ht'
    · rw [hrun]
      exact ⟨r, hown, ht'⟩
  | free i =>
    rcases hs with _ | ⟨h, _ | ⟨h', hs⟩⟩
    · exact ho
    · obtain ⟨r, hown, ht⟩ := ho
      cases i with
      | zero =>
        obtain ⟨s', hrun, ht'⟩ := hown.free ht
        simp only [HandleCall.step, List.getElem?_cons_zero, hrun]
        exact ht'
      | succ i =>
        simp only [HandleCall.step, List.getElem?_cons_succ, List.getElem?_nil]
        exact ⟨r, hown, ht⟩
    · exact ho.elim
  | resize i len form =>
    rcases hs with _ | ⟨h, _ | ⟨h', hs⟩⟩
    · exact ho
    · obtain ⟨r, hown, ht⟩ := ho
      cases i with
      | succ i =>
        simp only [HandleCall.step, List.getElem?_cons_succ, List.getElem?_nil, Option.bind_none]
        exact ⟨r, hown, ht⟩
      | zero =>
        cases h with
        | sliced sl =>
          obtain ⟨hfit, hform⟩ := hc sl rfl
          simp only [HandleCall.step, List.getElem?_cons_zero, Option.bind_some, Held.resize,
            HandleCall.replace]
          rcases hown.resize_cases ht hfit hform with
            ⟨f, s', hrun, harena, hsize⟩ | ⟨sl', s', r', hrun, hown', ht'⟩
          · rw [Act.run_bind_error hrun]
            exact ⟨r, hown.congr harena hsize, by rw [harena]; exact ht⟩
          · rw [Act.run_bind_ok hrun]
            exact ⟨r', hown', ht'⟩
        | typed _ => exact hown.elim
        | slice _ => exact hown.elim
        | unique _ => exact hown.elim
        | uslice _ => exact hown.elim
    · exact ho.elim
  | typed => exact hc.elim
  | unique => exact hc.elim
  | slice => exact hc.elim
  | uslice => exact hc.elim

/-- So does every sequence of requests that keeps the promise. -/
theorem run_ownedOne {cs : List HandleCall} (ho : OwnedOne s hs) (hob : ObeysOne cs s hs) :
    OwnedOne (HandleCall.run cs s hs).1 (HandleCall.run cs s hs).2 := by
  induction cs generalizing s hs with
  | nil => exact ho
  | cons c cs ih => exact ih (step_ownedOne ho hob.1) hob.2

end Every

end Sized

/-! ## Handles free what they claimed

The arena keeps no record of its runs: a free, and the old run a resize frees, are told how many
blocks to release by the layout the handle passes, so each must ask for exactly the blocks its
run was granted.  For a power-of-two block size that rests on the rounding identity
`blocksFor (⌊k * B / e⌋ * e) = k` for `k = blocksFor (n * e)`; over every sequence of requests
that keeps the client's promise, the handles then own exactly the runs the arena tracks, and the
arena is empty once they are all freed. -/

open AddressStore in
/-- Every free and every old run a resize frees asks for the blocks its run was granted, and
    handles over an arena, or one `Sliced` run over remembered sizes, own what the arena tracks
    through every sequence of requests that keeps the client's promise. -/
theorem handles_free_what_they_claimed :
    (∀ (a : Arena) (m e : Int64), (∃ j : Nat, a.blockSize.toInt = 2 ^ j) → 0 ≤ m.toInt →
        m.toInt + a.blockSize.toInt - 1 ≤ Word.maxInt.toInt → 0 < e.toInt → e.toInt ∣ m.toInt →
        1 ≤ (a.blocksFor m).toInt ∧
          (a.blocksFor (a.blocksFor m * a.blockSize / e * e)).toInt = (a.blocksFor m).toInt) ∧
      (∀ (s : AddressStore) (h : Held Addr) (x : Extent), Owns s h (some x) →
        ∃ l : Layout, (s.arena.blocksFor l.size).toInt = x.count ∧
          (h.deallocate : Act AddressStore Unit) =
            Storage.deallocate (.offset (x.addr s.arena).toInt) l) ∧
      (∀ (s : AddressStore) (h : Held Addr) (x : Extent) (sl : Slice Addr) (old : Layout),
        Owns s h (some x) → h.run? = some sl → Layout.array sl.elem.layout sl.len = .ok old →
        (s.arena.blocksFor old.size).toInt = x.count) ∧
      (∀ (s : Sized AddressStore) (sl : Sliced Addr) (x : Extent),
        Sized.Owns s (.sliced sl) (some x) → Tracks s.inner.arena [x] →
        (s.inner.arena.blocksFor s.size).toInt = x.count ∧
          ∀ old : Layout, Layout.array sl.elem.layout (s.size / sl.elem.size) = .ok old →
            (s.inner.arena.blocksFor old.size).toInt = x.count) ∧
      (∀ (s : AddressStore) (cs : List HandleCall), Tracks s.arena [] →
        HandleCall.Obeys cs s [] →
        Owned (HandleCall.run cs s []).1 (HandleCall.run cs s []).2 ∧
          ((HandleCall.run cs s []).2 = [] → (HandleCall.run cs s []).1.arena.isEmpty = true)) ∧
      (∀ (s : Sized AddressStore) (cs : List HandleCall), Tracks s.inner.arena [] →
        Sized.ObeysOne cs s [] →
        Sized.OwnedOne (HandleCall.run cs s []).1 (HandleCall.run cs s []).2 ∧
          ((HandleCall.run cs s []).2 = [] →
            (HandleCall.run cs s []).1.inner.arena.isEmpty = true)) := by
  refine ⟨?rounding, fun s h x hown => hown.deallocate_eq,
    fun s h x sl old hown hsl hold => hown.array_blocks hsl hold,
    fun s sl x hown ht => hown.layouts_blocks ht, ?handles, ?sized⟩
  case rounding =>
    intro a m e hpow h0 hm he hdvd
    have hbs : 0 < a.blockSize.toInt := by
      obtain ⟨j, hj⟩ := hpow
      rw [hj]
      exact pow_pos (by decide) j
    exact ⟨Arena.one_le_blocksFor hbs h0 hm,
      Arena.blocksFor_whole_elems hbs h0 hm he hdvd (Arena.blocksFor_room hpow h0 hm)⟩
  case handles =>
    intro s cs ht hob
    have ho := run_owned (owned_nil_iff.2 ht) hob
    refine ⟨ho, fun hnil => ?_⟩
    rw [hnil] at ho
    exact (owned_nil_iff.1 ho).isEmpty_of_nil
  case sized =>
    intro s cs ht hob
    have ho : Sized.OwnedOne (HandleCall.run cs s []).1 (HandleCall.run cs s []).2 :=
      Sized.run_ownedOne ht hob
    refine ⟨ho, fun hnil => ?_⟩
    rw [hnil] at ho
    exact Tracks.isEmpty_of_nil ho

/-- Over a new arena of eight blocks of eight bytes, fifteen bytes of three-byte elements round to
    two blocks and back, and a run of five of them, allocated and then freed, leaves the handles
    owning what the arena tracks. -/
theorem handles_over_new_arena :
    ∃ s : AddressStore,
      (s.arena.blocksFor (s.arena.blocksFor 15 * s.arena.blockSize / 3 * 3)).toInt =
          (s.arena.blocksFor 15).toInt ∧
        AddressStore.Owned (HandleCall.run [.slice .b3 5 false, .free 0] s []).1
          (HandleCall.run [.slice .b3 5 false, .free 0] s []).2 := by
  obtain ⟨a, hcreate⟩ : ∃ a, Arena.create true 72 8 8 8 = .ok a := ⟨_, rfl⟩
  have ht : Tracks a [] := Tracks.of_create hcreate (by decide) (by decide)
  have hbs : a.blockSize = 8 := by
    obtain ⟨-, -, -, -, rfl⟩ := Arena.create_inv hcreate
    rfl
  have hob : HandleCall.Obeys [.slice .b3 5 false, .free 0] { arena := a } [] := by
    refine ⟨?_, trivial, trivial⟩
    simp only [HandleCall.Allowed, hbs]
    decide
  refine ⟨{ arena := a }, (handles_free_what_they_claimed.1 a 15 3 ⟨3, by rw [hbs]; rfl⟩
    (by decide) (by rw [hbs]; decide) (by decide) (by decide)).2,
    (handles_free_what_they_claimed.2.2.2.2.1 _ _ ht hob).1⟩

end BlockArena
