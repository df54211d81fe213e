import BlockArena.Proofs.WholeElements
import BlockArena.Session.Bench

/-! # Handles free what they were granted

An arena keeps no record of its allocations, and a free gives back the blocks the layout it names
asks for. The handles over an address storage remember less than they were granted: a
one-element handle its element, a run the whole elements that fit in the bytes it got. Over any
sequence of requests of the handle layer, every held handle names the run it was granted, with a
layout that asks for exactly that run's blocks: the invariant `AddressStore.Owned` (the arena
tracks exactly the runs the held handles hold) is kept by every request, from one lemma per
request (`AddressStore.tryAllocate_lands`, `AddressStore.sliceAllocate_lands`,
`AddressStore.Owns.free`, `AddressStore.OwnsRun.tryResize_lands`), so by every run of requests
(`AddressStore.step_owned`, `AddressStore.run_owned`). Owners reach the storage only through the
handle they own.
-/

set_option autoImplicit false

namespace BlockArena

open Session (Held)

/-! ## A client of the handle layer -/

/-- A request a client makes of the handle layer, naming the handles it holds by their place: a
    fresh handle of one of the kinds, for one element or a run of `count`, left as the storage
    has it or cleared; a free of its `i`-th handle; a resize of its `i`-th handle, a run, to
    `len` elements in a form. -/
inductive HandleCall where
  | typed (e : Elem) (zeroed : Bool)
  | unique (e : Elem) (zeroed : Bool)
  | slice (e : Elem) (count : Int64) (zeroed : Bool)
  | uslice (e : Elem) (count : Int64) (zeroed : Bool)
  | sliced (e : Elem) (count : Int64) (zeroed : Bool)
  | free (i : Nat)
  | resize (i : Nat) (len : Int64) (form : ResizeForm)

namespace Session.Held

variable {σ H : Type} [Storage σ H]

/-- Free a handle's allocation; an owner frees the handle it owns. -/
def deallocate : Held H → Act σ Unit
  | .typed t => t.deallocate
  | .slice s => s.deallocate
  | .sliced s => s.deallocate
  | .unique u => u.inner.deallocate
  | .uslice u => u.inner.deallocate

/-- Resize a run to `len` elements in a form, answering the handle that replaces it; the owner
    of a run hands out a fresh owner. A handle to one element has nothing to resize. -/
def resize (len : Int64) (form : ResizeForm) : Held H → Option (Act σ (Held H))
  | .slice s => some (do pure (.slice (← s.tryResize len form)))
  | .sliced s => some (do pure (.sliced (← s.tryResize len form)))
  | .uslice u => some (do pure (.uslice ⟨← u.inner.tryResize len form, false⟩))
  | _ => none

/-- The run that carries its length in a handle: a `Slice`, or the one an owner owns. -/
def run? : Held H → Option (Slice H)
  | .slice s => some s
  | .uslice u => some u.inner
  | _ => none

end Session.Held

namespace HandleCall

variable {σ H : Type} [Storage σ H]

/-- Hold the handle a request answers after those held; a refused request holds nothing new. -/
def hold {α : Type} (act : Act σ α) (wrap : α → Held H) (s : σ) (hs : List (Held H)) :
    σ × List (Held H) :=
  match act.run s with
  | .ok a s' => (s', hs ++ [wrap a])
  | .error _ s' => (s', hs)

/-- Run a request that replaces the `i`-th handle held: the handle it answers takes its place. -/
def replace (act : Act σ (Held H)) (i : Nat) (s : σ) (hs : List (Held H)) :
    σ × List (Held H) :=
  match act.run s with
  | .ok h s' => (s', hs.set i h)
  | .error _ s' => (s', hs)

/-- What a request does to the storage and to the handles the client holds. -/
def step : HandleCall → σ → List (Held H) → σ × List (Held H)
  | .typed e zeroed, s, hs => hold (Typed.tryAllocate e zeroed) .typed s hs
  | .unique e zeroed, s, hs => hold (Typed.tryAllocate e zeroed) (fun t => .unique ⟨t, false⟩) s hs
  | .slice e count zeroed, s, hs => hold (Slice.tryAllocate e count zeroed) .slice s hs
  | .uslice e count zeroed, s, hs =>
    hold (Slice.tryAllocate e count zeroed) (fun sl => .uslice ⟨sl, false⟩) s hs
  | .sliced e count zeroed, s, hs => hold (Sliced.tryAllocate e count zeroed) .sliced s hs
  | .free i, s, hs =>
    match hs[i]? with
    | some h =>
      match (h.deallocate : Act σ Unit).run s with
      | .ok _ s' => (s', hs.eraseIdx i)
      | .error _ s' => (s', hs)
    | none => (s, hs)
  | .resize i len form, s, hs =>
    match hs[i]?.bind (Held.resize len form) with
    | some act => replace act i s hs
    | none => (s, hs)

/-- What a sequence of requests does, one after the other. -/
def run : List HandleCall → σ → List (Held H) → σ × List (Held H)
  | [], s, hs => (s, hs)
  | c :: cs, s, hs => run cs (c.step s hs).1 (c.step s hs).2

/-- What a client of an address storage promises of a request, holding `hs`: the bytes of the
    elements it asks for round up to whole blocks without overflow, and a resize of a run keeps
    a region that fits (`ResizeForm.Fits`). It makes no `Sliced` handles. -/
def Allowed (s : AddressStore) (hs : List (Held Addr)) : HandleCall → Prop
  | .typed e _ | .unique e _ => e.size.toInt + s.arena.blockSize.toInt - 1 ≤ Word.maxInt.toInt
  | .slice e count _ | .uslice e count _ =>
    e.size.toInt * count.toInt + s.arena.blockSize.toInt - 1 ≤ Word.maxInt.toInt
  | .sliced .. => False
  | .free _ => True
  | .resize i len form => ∀ sl, hs[i]?.bind Held.run? = some sl →
    sl.elem.size.toInt * len.toInt + s.arena.blockSize.toInt - 1 ≤ Word.maxInt.toInt ∧
      form.Fits sl.len len

/-- A client keeps its promise through a sequence of requests: each is allowed in the state, and
    with the handles, that the requests before it left. -/
def Obeys : List HandleCall → AddressStore → List (Held Addr) → Prop
  | [], _, _ => True
  | c :: cs, s, hs => Allowed s hs c ∧ Obeys cs (step c s hs).1 (step c s hs).2

end HandleCall

/-! ## Bookkeeping of held runs

The runs a client's handles hold are kept in a list beside the handles, `none` for a handle that
holds no run. Holding a new handle, dropping one and replacing one permute the runs the arena
must track in the same way. -/

section Bookkeeping

variable {α β : Type}

theorem reduceOption_cons (r : Option α) (rs : List (Option α)) :
    (r :: rs).reduceOption = r.toList ++ rs.reduceOption := by
  cases r <;> rfl

theorem reduceOption_concat_perm (rs : List (Option α)) (r : Option α) :
    (rs ++ [r]).reduceOption.Perm (r.toList ++ rs.reduceOption) := by
  rw [List.reduceOption_append, List.reduceOption_singleton]
  exact List.perm_append_comm

theorem reduceOption_eraseIdx_perm {rs : List (Option α)} {i : Nat} {r : Option α}
    (h : rs[i]? = some r) : rs.reduceOption.Perm (r.toList ++ (rs.eraseIdx i).reduceOption) := by
  obtain ⟨hi, hr⟩ := List.getElem?_eq_some_iff.1 h
  have hp : (rs[i] :: rs.eraseIdx i).reduceOption.Perm rs.reduceOption :=
    (List.getElem_cons_eraseIdx_perm hi).filterMap id
  rw [reduceOption_cons, hr] at hp
  exact hp.symm

theorem reduceOption_set_perm {rs : List (Option α)} {i : Nat} (hi : i < rs.length)
    (r : Option α) : (rs.set i r).reduceOption.Perm (r.toList ++ (rs.eraseIdx i).reduceOption) := by
  have hp : (rs.set i r).reduceOption.Perm (r :: rs.eraseIdx i).reduceOption :=
    (List.set_perm_cons_eraseIdx hi r).filterMap id
  rwa [reduceOption_cons] at hp

variable {R : α → β → Prop}

theorem forall₂_getElem? {l₁ : List α} {l₂ : List β} (h : List.Forall₂ R l₁ l₂) {i : Nat}
    {a : α} (ha : l₁[i]? = some a) : ∃ b, l₂[i]? = some b ∧ R a b := by
  induction h generalizing i with
  | nil => simp at ha
  | cons hab _ ih =>
    cases i with
    | zero =>
      simp only [List.getElem?_cons_zero, Option.some.injEq] at ha ⊢
      exact ⟨_, rfl, ha ▸ hab⟩
    | succ i =>
      simp only [List.getElem?_cons_succ] at ha ⊢
      exact ih ha

theorem forall₂_eraseIdx {l₁ : List α} {l₂ : List β} (h : List.Forall₂ R l₁ l₂) (i : Nat) :
    List.Forall₂ R (l₁.eraseIdx i) (l₂.eraseIdx i) := by
  induction h generalizing i with
  | nil => exact .nil
  | cons hab hrest ih =>
    cases i with
    | zero => exact hrest
    | succ i => exact .cons hab (ih i)

theorem forall₂_set {l₁ : List α} {l₂ : List β} (h : List.Forall₂ R l₁ l₂) (i : Nat) {a : α}
    {b : β} (hab : R a b) : List.Forall₂ R (l₁.set i a) (l₂.set i b) := by
  induction h generalizing i with
  | nil => exact .nil
  | cons hab' hrest ih =>
    cases i with
    | zero => exact .cons hab hrest
    | succ i => exact .cons hab' (ih i)

end Bookkeeping

/-! ## What the handles hold on an address storage -/

namespace AddressStore

/-- What a handle to one element holds on an address storage: nothing, for a zero-sized element,
    or the run its address names, whose blocks the element's layout asks for. -/
def OwnsOne (s : AddressStore) (t : Typed Addr) : Option Extent → Prop
  | none => t.elem.isZeroSized = true
  | some x => t.elem.isZeroSized = false ∧ t.raw = .offset (x.addr s.arena).toInt ∧
      (s.arena.blocksFor t.elem.size).toInt = x.count

/-- What a run that carries its length holds on an address storage: nothing, for zero-sized
    elements, or the run its address names, inside which its elements lie, and whose blocks the
    layout of its elements asks for. -/
def OwnsRun (s : AddressStore) (sl : Slice Addr) : Option Extent → Prop
  | none => sl.elem.isZeroSized = true
  | some x => sl.elem.isZeroSized = false ∧ sl.raw = .offset (x.addr s.arena).toInt ∧
      0 ≤ sl.len.toInt ∧ sl.len.toInt * sl.elem.size.toInt ≤ x.count * s.arena.blockSize.toInt ∧
      (s.arena.blocksFor (sl.len * sl.elem.size)).toInt = x.count

/-- What a held handle holds on an address storage; an owner holds what the handle it owns
    holds. A `Sliced` handle has no place there: an address storage records no size for it to
    read. -/
def Owns (s : AddressStore) : Held Addr → Option Extent → Prop
  | .typed t => OwnsOne s t
  | .unique u => OwnsOne s u.inner
  | .slice sl => OwnsRun s sl
  | .uslice u => OwnsRun s u.inner
  | .sliced _ => fun _ => False

/-- The handles `hs` hold exactly the runs the arena tracks: each one of them, or none. -/
def Owned (s : AddressStore) (hs : List (Held Addr)) : Prop :=
  ∃ rs : List (Option Extent), List.Forall₂ (Owns s) hs rs ∧ Tracks s.arena rs.reduceOption

variable {s s' : AddressStore}

theorem Owns.of_sameBlocks (hsame : s.arena.SameBlocks s'.arena) {h : Held Addr}
    {r : Option Extent} (hown : Owns s h r) : Owns s' h r := by
  cases h <;> cases r <;>
    simp only [Owns, OwnsOne, OwnsRun, hsame.addr_eq, hsame.blocksFor_eq,
      hsame.blockSize_eq] at hown ⊢ <;> exact hown

/-- A request on an arena that tracks `live` lands one run `r`, or none: it refuses with the
    arena as it was, or it answers, keeping the arena's blocks, with what holds `r` as `own`
    says, and the arena tracks `r` besides `live`. -/
def Lands {α : Type} (s : AddressStore) (live : List Extent) (act : Act AddressStore α)
    (own : AddressStore → α → Option Extent → Prop) : Prop :=
  (∃ f s', act.run s = .error f s' ∧ s'.arena = s.arena) ∨
  ∃ a s' r, act.run s = .ok a s' ∧ s.arena.SameBlocks s'.arena ∧ own s' a r ∧
    Tracks s'.arena (r.toList ++ live)

section Lands

variable {α β : Type} {live : List Extent} {act act' : Act AddressStore α}
  {own : AddressStore → α → Option Extent → Prop}

theorem Lands.congr (h : act.run s = act'.run s) (hl : Lands s live act' own) :
    Lands s live act own := by
  unfold Lands
  rw [h]
  exact hl

theorem Lands.map {own' : AddressStore → β → Option Extent → Prop} (f : α → β)
    (hf : ∀ s' a r, own s' a r → own' s' (f a) r) (hl : Lands s live act own) :
    Lands s live (act >>= fun a => pure (f a)) own' := by
  rcases hl with ⟨e, s₁, hrun, harena⟩ | ⟨a, s₁, r, hrun, hsame, hown, ht⟩
  · exact .inl ⟨e, s₁, Act.run_bind_error hrun, harena⟩
  · exact .inr ⟨f a, s₁, r, by rw [Act.run_bind_ok hrun]; rfl, hsame, hf s₁ a r hown, ht⟩

end Lands

/-! ## Each request -/

section Requests

variable {s : AddressStore} {live : List Extent}

/-- A choice between two requests followed by the same steps, as `do` writes it for a
    `let (h, n) ← if c then a else b`, is the chosen request followed by them. -/
theorem run_ite_bind {σ α β : Type} (c : Bool) (a b : Act σ α) (k : α → Act σ β) (s : σ) :
    (if c then a >>= k else b >>= k).run s = ((if c then a else b) >>= k).run s := by
  cases c <;> rfl

theorem dangling_run (align : UInt64) :
    (Storage.dangling align : Act AddressStore Addr).run s =
      match Addr.danglingFor align with
      | .ok p => .ok p s
      | .error f => .error f s := by
  show (Act.ofExcept (Addr.danglingFor align) : Act AddressStore Addr).run s = _
  cases Addr.danglingFor align <;> rfl

/-- A handle to one element whose bytes round up to whole blocks without overflow lands a fresh
    run of the blocks its layout asks for, or none for a zero-sized element. -/
theorem tryAllocate_lands (ht : Tracks s.arena live) (e : Elem) (zeroed : Bool)
    (hfit : e.size.toInt + s.arena.blockSize.toInt - 1 ≤ Word.maxInt.toInt) :
    Lands s live (Typed.tryAllocate e zeroed) OwnsOne := by
  unfold Typed.tryAllocate
  by_cases hz : e.isZeroSized = true
  · -- the dangling handle holds no run
    rw [if_pos hz]
    unfold Typed.tryDangling
    cases hp : Addr.danglingFor e.align with
    | ok p =>
      have hd : (Storage.dangling e.align : Act AddressStore Addr).run s = .ok p s := by
        rw [dangling_run, hp]
      exact .inr ⟨⟨e, p⟩, s, none, by rw [Act.run_bind_ok hd]; rfl, .refl _, hz, ht⟩
    | error f =>
      have hd : (Storage.dangling e.align : Act AddressStore Addr).run s = .error f s := by
        rw [dangling_run, hp]
      exact .inl ⟨f, s, Act.run_bind_error hd, rfl⟩
  · rw [if_neg hz]
    have hsz : s.arena.Sized e.layout := ⟨Elem.size_nonneg e, hfit⟩
    refine Lands.congr (run_ite_bind zeroed _ _ _ s) ?_
    rcases grant_cases ht hsz zeroed with
      ⟨f, hf⟩ | ⟨y, s', hrun, hsame, ht', hcount⟩
    · exact .inl ⟨f, _, Act.run_bind_error hf, rfl⟩
    · refine .inr ⟨⟨e, _⟩, s', some y, by rw [Act.run_bind_ok hrun]; rfl, hsame,
        ⟨Bool.eq_false_iff.2 hz, by rw [hsame.addr_eq], ?_⟩, ht'⟩
      rw [hsame.blocksFor_eq]
      exact hcount.symm

/-- A run of `count` elements whose bytes round up to whole blocks without overflow lands a
    fresh run of the blocks the array asks for, counting the whole elements in its bytes, or
    none for zero-sized elements. -/
theorem sliceAllocate_lands (ht : Tracks s.arena live) (e : Elem) (count : Int64) (zeroed : Bool)
    (hfit : e.size.toInt * count.toInt + s.arena.blockSize.toInt - 1 ≤ Word.maxInt.toInt) :
    Lands s live (Slice.tryAllocate e count zeroed) OwnsRun := by
  have hbs := ht.geometry.blockSize_pos
  unfold Slice.tryAllocate
  cases harr : Layout.array e.layout count with
  | error f => exact .inl ⟨f, s, Act.run_bind_error (Act.run_ofExcept_error f s), rfl⟩
  | ok l =>
    obtain ⟨rfl, hsize, hsz⟩ := Arena.sized_array harr hfit hbs
    refine Lands.congr (Act.run_bind_ok (Act.run_ofExcept_ok _ s)) ?_
    by_cases hz : e.isZeroSized = true
    · -- the dangling run holds no run, whatever it counts
      dsimp only
      rw [if_pos hz]
      cases hp : Addr.danglingFor e.align with
      | ok p =>
        have hd : (Slice.tryDangling e : Act AddressStore (Slice Addr)).run s = .ok ⟨e, p, 0⟩ s := by
          unfold Slice.tryDangling
          rw [Act.run_bind_ok (show (Storage.dangling e.align : Act AddressStore Addr).run s =
            .ok p s by rw [dangling_run, hp])]
          rfl
        exact .inr ⟨⟨e, p, Word.maxInt⟩, s, none, by rw [Act.run_bind_ok hd]; rfl, .refl _, hz, ht⟩
      | error f =>
        have hd : (Slice.tryDangling e : Act AddressStore (Slice Addr)).run s = .error f s := by
          unfold Slice.tryDangling
          exact Act.run_bind_error (show (Storage.dangling e.align : Act AddressStore Addr).run s =
            .error f s by rw [dangling_run, hp])
        exact .inl ⟨f, s, Act.run_bind_error hd, rfl⟩
    · dsimp only
      rw [if_neg hz]
      refine Lands.congr (run_ite_bind zeroed _ _ _ s) ?_
      rcases grant_cases ht hsz zeroed with ⟨f, hf⟩ | ⟨y, s', hrun, hsame, ht', hcount⟩
      · exact .inl ⟨f, _, Act.run_bind_error hf, rfl⟩
      have he := Elem.size_pos (Bool.eq_false_iff.2 hz)
      obtain ⟨h0, hle, hblocks⟩ := ht'.whole_elems List.mem_cons_self (m := e.size * count)
        hsz.1 (by rw [hsame.blockSize_eq]; exact hsz.2) he
        (by rw [hsize]; exact Dvd.intro _ rfl) (by rw [hsame.blocksFor_eq]; exact hcount)
      simp only [hsame.blocksFor_eq, hsame.blockSize_eq] at h0 hle hblocks
      refine .inr ⟨⟨e, _, _⟩, s', some y, by rw [Act.run_bind_ok hrun]; rfl, hsame,
        ⟨Bool.eq_false_iff.2 hz, by rw [hsame.addr_eq], h0, ?_, ?_⟩, ht'⟩
      · rw [hsame.blockSize_eq]
        exact hle
      · rw [hsame.blocksFor_eq]
        exact hblocks

/-! ### Frees -/

/-- The free of a run the arena tracks, at its address, with a layout that asks for exactly its
    blocks, gives them back, and the arena tracks the other runs. -/
theorem free_run {x : Extent} {rest : List Extent} (ht : Tracks s.arena (x :: rest)) {l : Layout}
    (hl : (s.arena.blocksFor l.size).toInt = x.count) :
    ∃ s', (Storage.deallocate (.offset (x.addr s.arena).toInt) l : Act AddressStore Unit).run s =
        .ok () s' ∧ s.arena.SameBlocks s'.arena ∧ Tracks s'.arena rest := by
  obtain ⟨a', hrun, hsame, ht', -⟩ := deallocate_ok ht List.mem_cons_self hl
  rw [List.erase_cons_head] at ht'
  exact ⟨_, hrun, hsame, ht'⟩

/-- A held handle that holds a run frees it at its address, with a layout that asks for exactly
    its blocks: the element's layout for a handle to one element, the array of its length for a
    run. -/
theorem Owns.deallocate_eq {h : Held Addr} {x : Extent} (hown : Owns s h (some x)) :
    ∃ l : Layout, (s.arena.blocksFor l.size).toInt = x.count ∧
      (h.deallocate : Act AddressStore Unit) =
        Storage.deallocate (.offset (x.addr s.arena).toInt) l := by
  cases h with
  | typed t =>
    obtain ⟨hz, hraw, hl⟩ := hown
    exact ⟨t.elem.layout, hl, by
      simp only [Held.deallocate, Typed.deallocate, hz, Bool.false_eq_true, ite_false, hraw]⟩
  | unique u =>
    obtain ⟨hz, hraw, hl⟩ := hown
    exact ⟨u.inner.elem.layout, hl, by
      simp only [Held.deallocate, Typed.deallocate, hz, Bool.false_eq_true, ite_false, hraw]⟩
  | slice sl =>
    obtain ⟨hz, hraw, -, -, hl⟩ := hown
    exact ⟨⟨sl.len * sl.elem.size, sl.elem.align⟩, hl, by
      simp only [Held.deallocate, Slice.deallocate, hz, Bool.false_eq_true, ite_false, hraw]⟩
  | uslice u =>
    obtain ⟨hz, hraw, -, -, hl⟩ := hown
    exact ⟨⟨u.inner.len * u.inner.elem.size, u.inner.elem.align⟩, hl, by
      simp only [Held.deallocate, Slice.deallocate, hz, Bool.false_eq_true, ite_false, hraw]⟩
  | sliced _ => exact hown.elim

/-- The array of a held run's length, with which a resize frees the run it holds, asks for
    exactly that run's blocks. -/
theorem Owns.array_blocks {h : Held Addr} {x : Extent} (hown : Owns s h (some x))
    {sl : Slice Addr} (hsl : h.run? = some sl) {old : Layout}
    (hold : Layout.array sl.elem.layout sl.len = .ok old) :
    (s.arena.blocksFor old.size).toInt = x.count := by
  obtain ⟨-, rfl⟩ := Layout.array_eq_ok hold
  have hrun : OwnsRun s sl (some x) := by
    cases h with
    | slice sl' =>
      cases hsl
      exact hown
    | uslice u =>
      cases hsl
      exact hown
    | typed _ => cases hsl
    | unique _ => cases hsl
    | sliced _ => cases hsl
  obtain ⟨-, -, -, -, hl⟩ := hrun
  show (s.arena.blocksFor (sl.elem.size * sl.len)).toInt = x.count
  rw [Int64.mul_comm]
  exact hl

theorem Owns.deallocate_none {h : Held Addr} (hown : Owns s h none) :
    (h.deallocate : Act AddressStore Unit).run s = .ok () s := by
  cases h with
  | typed t => simp only [Held.deallocate, Typed.deallocate, show t.elem.isZeroSized = true from hown,
      ite_true, Act.run_pure]
  | unique u => simp only [Held.deallocate, Typed.deallocate,
      show u.inner.elem.isZeroSized = true from hown, ite_true, Act.run_pure]
  | slice sl => simp only [Held.deallocate, Slice.deallocate,
      show sl.elem.isZeroSized = true from hown, ite_true, Act.run_pure]
  | uslice u => simp only [Held.deallocate, Slice.deallocate,
      show u.inner.elem.isZeroSized = true from hown, ite_true, Act.run_pure]
  | sliced _ => exact hown.elim

/-- Freeing a held handle gives back exactly the run it holds, and the arena tracks the rest. -/
theorem Owns.free {h : Held Addr} {r : Option Extent} {rest : List Extent} (hown : Owns s h r)
    (ht : Tracks s.arena (r.toList ++ rest)) :
    ∃ s', (h.deallocate : Act AddressStore Unit).run s = .ok () s' ∧
      s.arena.SameBlocks s'.arena ∧ Tracks s'.arena rest := by
  cases r with
  | none => exact ⟨s, hown.deallocate_none, .refl _, ht⟩
  | some x =>
    obtain ⟨l, hl, heq⟩ := hown.deallocate_eq
    rw [heq]
    exact free_run ht hl

/-! ### Resizes -/

/-- Past the two array checks, resizing a run of elements that take room is the storage's own
    resize in bytes, of the array of its length to the array of the new one, keeping the form's
    region counted in bytes. -/
theorem tryResize_run {σ : Type} [Storage σ Addr] {sl : Slice Addr} {len : Int64}
    {form : ResizeForm} {old new : Layout} (hz : sl.elem.isZeroSized = false)
    (hold : Layout.array sl.elem.layout sl.len = .ok old)
    (hnew : Layout.array sl.elem.layout len = .ok new) (t : σ) :
    (sl.tryResize len form : Act σ (Slice Addr)).run t =
      ((Storage.resizeWith { form with region := form.region.map (fun r : Region => r.scale sl.elem.size) }
          sl.raw old new : Act σ (Addr × Int64)) >>=
        fun p => pure { sl with raw := p.1, len := p.2 / sl.elem.size }).run t := by
  simp only [Slice.tryResize, Handle.resizeElems, hz, Bool.false_eq_true, ite_false, hold, hnew,
    Act.ofExcept, pure_bind, bind_assoc]

theorem Moved.tracks_head {rest : List Extent} {x y : Extent} {n : Int64} {r : Region}
    {s s' : AddressStore} (hm : Moved (x :: rest) x y n r s s') : Tracks s'.arena (y :: rest) := by
  have h := hm.tracks
  rwa [List.erase_cons_tail (by simpa using hm.ne), List.erase_cons_head] at h

/-- Resizing a run that holds a tracked run, to `len` elements whose bytes round up to whole
    blocks without overflow, in a form whose region fits: the old run is freed with the array
    of the run's length, which asks for exactly its blocks, and the new one, of the blocks the new
    array asks for, counts the whole elements in its bytes. A run of zero-sized elements keeps
    its handle. -/
theorem OwnsRun.tryResize_lands {sl : Slice Addr} {r : Option Extent} {rest : List Extent}
    (hown : OwnsRun s sl r) (ht : Tracks s.arena (r.toList ++ rest)) {len : Int64}
    {form : ResizeForm}
    (hfit : sl.elem.size.toInt * len.toInt + s.arena.blockSize.toInt - 1 ≤ Word.maxInt.toInt)
    (hform : form.Fits sl.len len) :
    Lands s rest (sl.tryResize len form) OwnsRun := by
  have hbs := ht.geometry.blockSize_pos
  cases r with
  | none =>
    have hrun : (sl.tryResize len form : Act AddressStore (Slice Addr)).run s =
        .ok { sl with len := Word.maxInt } s := by
      simp only [Slice.tryResize, Handle.resizeElems, show sl.elem.isZeroSized = true from hown,
        ite_true, pure_bind]
      rfl
    exact .inr ⟨_, s, none, hrun, .refl _, hown, ht⟩
  | some x =>
    obtain ⟨hz, hraw, hl0, hlen, hblocks⟩ := hown
    have he := Elem.size_pos hz
    replace ht : Tracks s.arena (x :: rest) := ht
    cases hold : Layout.array sl.elem.layout sl.len with
    | error f =>
      refine .inl ⟨f, s, ?_, rfl⟩
      simp only [Slice.tryResize, Handle.resizeElems, hz, Bool.false_eq_true, ite_false, hold,
        Act.ofExcept, bind_assoc]
      rfl
    | ok old =>
    cases hnew : Layout.array sl.elem.layout len with
    | error f =>
      refine .inl ⟨f, s, ?_, rfl⟩
      simp only [Slice.tryResize, Handle.resizeElems, hz, Bool.false_eq_true, ite_false, hold,
        hnew, Act.ofExcept, pure_bind, bind_assoc]
      rfl
    | ok new =>
    obtain ⟨-, rfl⟩ := Layout.array_eq_ok hold
    replace hold : Layout.array sl.elem.layout sl.len = .ok ⟨sl.elem.size * sl.len, sl.elem.align⟩ :=
      hold
    obtain ⟨rfl, hnsize, hnsz⟩ := Arena.sized_array hnew hfit hbs
    have hlen0 := (Layout.array_eq_ok hnew).1
    refine Lands.congr (tryResize_run hz hold hnew s) ?_
    -- the old array asks for the run's blocks, and the kept region fits the run and the new array
    have hx : x ∈ x :: rest := List.mem_cons_self
    have hroom := ht.run_room hx
    rw [Word.maxInt_toInt] at hroom hfit
    have hlen' : sl.elem.size.toInt * sl.len.toInt ≤ x.count * s.arena.blockSize.toInt := by
      rw [Int.mul_comm]
      exact hlen
    have hr := hform.kept_within_run he hl0 hlen0 (by rw [Word.maxInt_toInt]; omega)
      (by rw [Word.maxInt_toInt]; have := Int.mul_nonneg (Elem.size_nonneg sl.elem) hlen0; omega)
      hlen' sl.elem.align
    rcases resizeWith_cases ht hx (by rw [Int64.mul_comm]; exact hblocks) hnsz hr with
      ⟨f, hf⟩ | ⟨y, n, s', hrun, -, rfl, hcount, hm⟩
    · rw [← hraw] at hf
      exact .inl ⟨f, { s with epoch := s.epoch + 1 }, Act.run_bind_error hf, rfl⟩
    have hsame := hm.sameBlocks
    have ht' := hm.tracks_head
    obtain ⟨h0, hle, hblocks'⟩ := ht'.whole_elems List.mem_cons_self (m := sl.elem.size * len)
      hnsz.1 (by rw [hsame.blockSize_eq]; exact hnsz.2) he
      (by rw [hnsize]; exact Dvd.intro _ rfl) (by rw [hsame.blocksFor_eq]; exact hcount)
    simp only [hsame.blocksFor_eq, hsame.blockSize_eq] at h0 hle hblocks'
    rw [← hraw] at hrun
    refine .inr ⟨{ sl with
        raw := .offset (y.addr s.arena).toInt
        len := s.arena.blocksFor (sl.elem.size * len) * s.arena.blockSize / sl.elem.size },
      s', some y, by rw [Act.run_bind_ok hrun]; rfl, hsame,
      ⟨hz, by rw [hsame.addr_eq], h0, ?_, ?_⟩, ht'⟩
    · rw [hsame.blockSize_eq]
      exact hle
    · rw [hsame.blocksFor_eq]
      exact hblocks'

/-- Resizing a held run lands what resizing the run it carries lands; the owner of a run hands
    out a fresh owner of the resized run. -/
theorem Owns.resize_lands {h : Held Addr} {r : Option Extent} {rest : List Extent}
    (hown : Owns s h r) (ht : Tracks s.arena (r.toList ++ rest)) {len : Int64}
    {form : ResizeForm} {act : Act AddressStore (Held Addr)} (hact : h.resize len form = some act)
    (hc : ∀ sl, h.run? = some sl →
      sl.elem.size.toInt * len.toInt + s.arena.blockSize.toInt - 1 ≤ Word.maxInt.toInt ∧
        form.Fits sl.len len) :
    Lands s rest act Owns := by
  cases h with
  | slice sl =>
    cases hact
    obtain ⟨hfit, hform⟩ := hc sl rfl
    exact (OwnsRun.tryResize_lands hown ht hfit hform).map _ fun _ _ _ h => h
  | uslice u =>
    cases hact
    obtain ⟨hfit, hform⟩ := hc u.inner rfl
    exact (OwnsRun.tryResize_lands hown ht hfit hform).map _ fun _ _ _ h => h
  | sliced _ => exact hown.elim
  | typed _ => cases hact
  | unique _ => cases hact

end Requests

/-! ## Every request -/

section Every

variable {s : AddressStore} {hs : List (Held Addr)}

theorem Owned.hold {α : Type} {act : Act AddressStore α} {wrap : α → Held Addr}
    (ho : Owned s hs) (hl : ∀ live, Tracks s.arena live → Lands s live act fun s' a => Owns s' (wrap a)) :
    Owned (HandleCall.hold act wrap s hs).1 (HandleCall.hold act wrap s hs).2 := by
  obtain ⟨rs, hrs, ht⟩ := ho
  unfold HandleCall.hold
  rcases hl _ ht with ⟨f, s', hrun, harena⟩ | ⟨a, s', r, hrun, hsame, hown, ht'⟩
  · have hsame : s.arena.SameBlocks s'.arena := by
      rw [harena]
      exact .refl _
    rw [hrun]
    exact ⟨rs, hrs.imp fun _ _ h => h.of_sameBlocks hsame, by rw [harena]; exact ht⟩
  · rw [hrun]
    exact ⟨rs ++ [r], List.rel_append (hrs.imp fun _ _ h => h.of_sameBlocks hsame) (.cons hown .nil),
      ht'.perm (reduceOption_concat_perm rs r).symm⟩

/-- Freeing a held handle keeps the others holding their runs. -/
theorem Owned.free (ho : Owned s hs) (i : Nat) :
    Owned ((HandleCall.free i).step s hs).1 ((HandleCall.free i).step s hs).2 := by
  obtain ⟨rs, hrs, ht⟩ := ho
  simp only [HandleCall.step]
  cases hi : hs[i]? with
  | none => exact ⟨rs, hrs, ht⟩
  | some h =>
    obtain ⟨r, hr, hown⟩ := forall₂_getElem? hrs hi
    obtain ⟨s', hrun, hsame, ht'⟩ := hown.free (ht.perm (reduceOption_eraseIdx_perm hr))
    simp only [hrun]
    exact ⟨rs.eraseIdx i, (forall₂_eraseIdx hrs i).imp fun _ _ h => h.of_sameBlocks hsame, ht'⟩

theorem Owned.resize (ho : Owned s hs) {i : Nat} {len : Int64} {form : ResizeForm}
    (hc : HandleCall.Allowed s hs (.resize i len form)) :
    Owned ((HandleCall.resize i len form).step s hs).1
      ((HandleCall.resize i len form).step s hs).2 := by
  obtain ⟨rs, hrs, ht⟩ := ho
  simp only [HandleCall.step]
  cases hb : hs[i]?.bind (Held.resize (σ := AddressStore) len form) with
  | none => exact ⟨rs, hrs, ht⟩
  | some act =>
    obtain ⟨h, hi, hact⟩ := Option.bind_eq_some_iff.1 hb
    obtain ⟨r, hr, hown⟩ := forall₂_getElem? hrs hi
    have hlen := (List.getElem?_eq_some_iff.1 hr).1
    dsimp only [HandleCall.replace]
    rcases hown.resize_lands (ht.perm (reduceOption_eraseIdx_perm hr)) hact
      (fun sl hsl => hc sl (by rw [hi]; exact hsl)) with
      ⟨f, s', hrun, harena⟩ | ⟨h', s', r', hrun, hsame, hown', ht'⟩
    · -- a refused resize leaves the arena, and every handle, as it was
      have hsame : s.arena.SameBlocks s'.arena := by
        rw [harena]
        exact .refl _
      rw [hrun]
      exact ⟨rs, hrs.imp fun _ _ h => h.of_sameBlocks hsame, by rw [harena]; exact ht⟩
    · rw [hrun]
      exact ⟨rs.set i r', forall₂_set (hrs.imp fun _ _ h => h.of_sameBlocks hsame) i hown',
        ht'.perm (reduceOption_set_perm hlen r').symm⟩

/-- Every request a client of an address storage may make keeps the handles it holds holding
    exactly the runs the arena tracks. -/
theorem step_owned {c : HandleCall} (ho : Owned s hs) (hc : HandleCall.Allowed s hs c) :
    Owned (c.step s hs).1 (c.step s hs).2 := by
  cases c with
  | typed e zeroed => exact ho.hold fun _ ht => tryAllocate_lands ht e zeroed hc
  | unique e zeroed => exact ho.hold fun _ ht => tryAllocate_lands ht e zeroed hc
  | slice e count zeroed => exact ho.hold fun _ ht => sliceAllocate_lands ht e count zeroed hc
  | uslice e count zeroed => exact ho.hold fun _ ht => sliceAllocate_lands ht e count zeroed hc
  | sliced => exact hc.elim
  | free i => exact ho.free i
  | resize i len form => exact ho.resize hc

/-- So does every sequence of requests that keeps the client's promise. -/
theorem run_owned {cs : List HandleCall} (ho : Owned s hs) (hob : HandleCall.Obeys cs s hs) :
    Owned (HandleCall.run cs s hs).1 (HandleCall.run cs s hs).2 := by
  induction cs generalizing s hs with
  | nil => exact ho
  | cons c cs ih => exact ih (step_owned ho hob.1) hob.2

theorem owned_nil_iff : Owned s [] ↔ Tracks s.arena [] := by
  constructor
  · rintro ⟨rs, hrs, ht⟩
    rw [List.forall₂_nil_left_iff] at hrs
    subst hrs
    exact ht
  · intro ht
    exact ⟨[], .nil, ht⟩

end Every

end AddressStore

end BlockArena
