import BlockArena.Proofs.Owners
import BlockArena.Proofs.Refusal
import BlockArena.Session.Handles
import BlockArena.Session.Store

/-! # A refused resize keeps its handle

On an atomic storage (`Storage.Atomic`), the typed handles refuse only where the storage
does or before they reach it, when the element count has no array layout; either way the
storage is as it was (`Handle.resizeElems_firm`, `Slice.tryResize_firm`,
`Sliced.tryResize_firm`, and the allocations beside them).

A resize step of a session (`Session.Step.resizeRun`) that is refused therefore leaves the
storage as it was, the slot it resized holding its old handle (a run that carries its length
keeps that length, and a unique run stays unconsumed), and every other slot holding what it
held or a copy of the old handle. The aborting form of the same step ends in the same bench,
with `Fault.allocationAborted` for the layout of the new length (`resizeRun_refused`).
-/

set_option autoImplicit false

namespace BlockArena

variable {σ H τ : Type} {π : σ → τ}

/-! ## Typed handles -/

section Handles

variable [Storage σ H]

namespace Handle

theorem run_abortOn {α : Type} (l : Layout) (act : Act σ α) (s : σ) :
    (abortOn l act).run s = match act.run s with
      | .ok a s' => .ok a s'
      | .error f s' => .error (if f.aborts then f else .allocationAborted l) s' := rfl

@[simp] theorem formOf_false {α : Type} (l : Layout) (act : Act σ α) :
    formOf false l act = act := rfl

/-- In its aborting form a refused request aborts for the layout, leaving the state the
    refusal left. -/
theorem run_abortOn_refused {α : Type} {l : Layout} {act : Act σ α} {s s' : σ} {f : Fault}
    (h : act.run s = .error f s') (hf : f.aborts = false) :
    (abortOn l act).run s = .error (.allocationAborted l) s' := by
  rw [run_abortOn, h]
  simp [hf]

/-- A resize of a run refuses where the count has no array layout, before the storage is
    asked, or where the storage refuses. -/
theorem resizeElems_firm (hA : Storage.Atomic π) (e : Elem) (h : H) (oldLen newLen : Int64)
    (form : ResizeForm) : Act.Firm π (resizeElems e h oldLen newLen form : Act σ (H × Int64)) := by
  unfold resizeElems
  split
  · exact .of_onlyAborts (.pure _)
  · refine Act.Firm.bind_reads (.ofExcept _) (.ofExcept _) fun old => ?_
    refine Act.Firm.bind_reads (.ofExcept _) (.ofExcept _) fun new => ?_
    exact (hA.resizeWith _ _ _ _).bind_onlyAborts fun _ => .pure _

end Handle

namespace Slice

theorem tryResize_firm (hA : Storage.Atomic π) (s : Slice H) (newLen : Int64)
    (form : ResizeForm) : Act.Firm π (s.tryResize newLen form : Act σ (Slice H)) :=
  (Handle.resizeElems_firm hA _ _ _ _ _).bind_onlyAborts fun _ => .pure _

theorem tryAllocate_firm (hA : Storage.Atomic π) (e : Elem) (count : Int64) (zeroed : Bool) :
    Act.Firm π (tryAllocate e count zeroed : Act σ (Slice H)) := by
  unfold tryAllocate
  refine Act.Firm.bind_reads (.ofExcept _) (.ofExcept _) fun l => ?_
  split
  · exact ((hA.dangling _).bind_onlyAborts fun _ => .pure _).bind_onlyAborts fun _ => .pure _
  · dsimp only
    split
    · exact (hA.allocateZeroed l).bind_onlyAborts fun _ => .pure _
    · exact (hA.allocate l).bind_onlyAborts fun _ => .pure _

end Slice

namespace Sliced

theorem len_onlyAborts (hA : Storage.Atomic π) (s : Sliced H) :
    Act.OnlyAborts (s.len : Act σ Int64) := by
  unfold len
  split
  · exact .pure _
  · exact (hA.sizeOf_onlyAborts _).bind fun _ => .pure _

theorem len_reads (hA : Storage.Atomic π) (s : Sliced H) : Act.Reads (s.len : Act σ Int64) := by
  intro st n st' hrun
  unfold len at hrun
  split at hrun
  · exact Act.Reads.pure _ _ _ _ hrun
  · obtain ⟨size, st₁, hsize, hrun⟩ := Act.run_bind_eq_ok hrun
    cases hrun
    exact hA.sizeOf_reads _ _ _ _ hsize

/-- The length a resize starts from is read without changing anything, so the resize
    refuses only where the resize of the run does. -/
theorem tryResize_firm (hA : Storage.Atomic π) (s : Sliced H) (newLen : Int64)
    (form : ResizeForm) : Act.Firm π (s.tryResize newLen form : Act σ (Sliced H)) := by
  unfold tryResize
  refine Act.Firm.bind_reads (.of_onlyAborts (len_onlyAborts hA s)) (len_reads hA s) fun n => ?_
  exact (Handle.resizeElems_firm hA _ _ _ _ _).bind_onlyAborts fun _ => .pure _

theorem tryAllocate_firm (hA : Storage.Atomic π) (e : Elem) (count : Int64) (zeroed : Bool) :
    Act.Firm π (tryAllocate e count zeroed : Act σ (Sliced H)) := by
  unfold tryAllocate
  refine Act.Firm.bind_reads (.ofExcept _) (.ofExcept _) fun l => ?_
  split
  · exact (hA.dangling _).bind_onlyAborts fun _ => .pure _
  · dsimp only
    split
    · exact (hA.allocateZeroed l).bind_onlyAborts fun _ => .pure _
    · exact (hA.allocate l).bind_onlyAborts fun _ => .pure _

end Sliced

end Handles

/-! ## Steps whose faults abort -/

namespace Session

namespace Step

/-- Every fault `x` fails with aborts: `x` never passes a refusal on. -/
def FaultsAbort {α : Type} (x : Step σ H α) : Prop :=
  ∀ b f b', x.run b = .error (.fault f) b' → f.aborts = true

theorem FaultsAbort.of_ok {α : Type} {x : Step σ H α} (h : ∀ b, ∃ a b', x.run b = .ok a b') :
    FaultsAbort x := by
  intro b f b' hrun
  obtain ⟨a, b'', hok⟩ := h b
  rw [hok] at hrun
  cases hrun

theorem FaultsAbort.pure {α : Type} (a : α) : FaultsAbort (Pure.pure a : Step σ H α) :=
  .of_ok fun b => ⟨a, b, rfl⟩

theorem FaultsAbort.get : FaultsAbort (get : Step σ H (Bench σ H)) :=
  .of_ok fun b => ⟨b, b, rfl⟩

theorem FaultsAbort.modify (g : Bench σ H → Bench σ H) :
    FaultsAbort (modify g : Step σ H PUnit) :=
  .of_ok fun b => ⟨⟨⟩, g b, rfl⟩

theorem FaultsAbort.misuse {α : Type} (m : String) : FaultsAbort (misuse m : Step σ H α) := by
  intro b f b' hrun
  cases hrun

theorem FaultsAbort.bind {α β : Type} {x : Step σ H α} {g : α → Step σ H β}
    (hx : FaultsAbort x) (hg : ∀ a, FaultsAbort (g a)) : FaultsAbort (x >>= g) := by
  intro b f b'' hrun
  rcases Act.run_bind_eq_error hrun with hrun | ⟨a, b', -, hrun⟩
  · exact hx b f b'' hrun
  · exact hg a b' f b'' hrun

theorem run_onStore {α : Type} (act : Act σ α) (b : Bench σ H) :
    (onStore act).run b = match act.run b.store with
      | .ok a s => .ok a { b with store := s }
      | .error f s => .error (.fault f) { b with store := s } := rfl

theorem FaultsAbort.onStore {α : Type} {act : Act σ α} (h : Act.OnlyAborts act) :
    FaultsAbort (onStore act : Step σ H α) := by
  intro b f b' hrun
  rw [run_onStore] at hrun
  cases hact : act.run b.store with
  | ok a s =>
    rw [hact] at hrun
    cases hrun
  | error f' s =>
    rw [hact] at hrun
    cases hrun
    exact h _ _ _ hact

theorem FaultsAbort.onOwner {O α : Type} {name : String} {wrap : O → Held H} {o : O}
    {act : Act (σ × O) α} (h : Act.OnlyAborts act) :
    FaultsAbort (onOwner name wrap o act : Step σ H α) := by
  intro b f b' hrun
  rw [run_onOwner] at hrun
  cases hact : act.run (b.store, o) with
  | ok a p =>
    rw [hact] at hrun
    cases hrun
  | error f' p =>
    rw [hact] at hrun
    cases hrun
    exact h _ _ _ hact

/-! ## The steps before the storage is asked -/

theorem run_slot {b : Bench σ H} {name : String} {h : Held H} (hl : b.slots.lookup name = some h) :
    (slot name : Step σ H (Held H)).run b = .ok h b := by
  unfold slot
  rw [Act.run_bind_ok (Act.run_get b), hl]
  rfl

theorem run_need_ok {α : Type} {f : Field α} {a : α} (h : required f = .ok a) (b : Bench σ H) :
    (need f : Step σ H α).run b = .ok a b := by
  unfold need
  rw [h]
  rfl

theorem run_need_error {α : Type} {f : Field α} {e : Failure} (h : required f = .error e)
    (b : Bench σ H) : ∃ m, (need f : Step σ H α).run b = .error (.misuse m) b := by
  unfold need
  rw [h]
  unfold required at h
  cases f with
  | ok a => cases h
  | error why =>
    cases h
    exact ⟨_, rfl⟩

theorem run_resizeForm_none {fn : String} (h : ResizeForm.partsOf? fn = none) (region : Region)
    (b : Bench σ H) :
    (resizeForm fn region : Step σ H ResizeForm).run b = .error (.misuse "unknown resize fn") b := by
  unfold resizeForm
  rw [h]
  rfl

theorem run_resizeForm_some {fn : String} {parts : Bool × Bool × Bool}
    (h : ResizeForm.partsOf? fn = some parts) (region : Region) (b : Bench σ H) :
    (resizeForm fn region : Step σ H ResizeForm).run b =
      .ok ⟨parts.1, parts.2.1, if parts.2.2 then some region else none⟩ b := by
  unfold resizeForm
  rw [h]
  rfl

theorem run_setSlot (name : String) (h : Held H) (b : Bench σ H) :
    (setSlot name h).run b =
      .ok () { b with slots := (name, h) :: b.slots.filter (·.1 != name) } := rfl

theorem lookup_filter_ne {slots : List (String × Held H)} {name k : String} (hk : k ≠ name) :
    (slots.filter (·.1 != name)).lookup k = slots.lookup k := by
  have hkn : (k == name) = false := beq_eq_false_iff_ne.mpr hk
  induction slots with
  | nil => rfl
  | cons p slots ih =>
    obtain ⟨j, v⟩ := p
    by_cases hj : j = name
    · subst hj
      simp only [List.filter_cons, bne_self_eq_false, Bool.false_eq_true, if_false,
        List.lookup_cons, hkn, ih]
    · simp [hj, List.lookup_cons, ih]

theorem lookup_setSlot (slots : List (String × Held H)) (name k : String) (h : Held H) :
    ((name, h) :: slots.filter (·.1 != name)).lookup k =
      if k = name then some h else slots.lookup k := by
  by_cases hk : k = name
  · subst hk
    simp
  · have hkn : (k == name) = false := beq_eq_false_iff_ne.mpr hk
    simp only [List.lookup_cons, hkn, if_neg hk, lookup_filter_ne hk]

/-! ## Describing a handle -/

section Described

variable [Storage σ H]

theorem needSliced_faultsAbort : FaultsAbort (needSliced : Step σ H Unit) := by
  unfold needSliced
  split
  · exact .pure _
  · exact .misuse _

theorem token_faultsAbort (codec : Codec H) (h : H) : FaultsAbort (token codec h : Step σ H Token) :=
  .of_ok fun b => ⟨_, b, rfl⟩

theorem len_onlyAborts : Act.OnlyAborts (UniqueSlice.call .len : Act (σ × UniqueSlice H) Int64) := by
  rintro ⟨s, u⟩ f p hrun
  cases hc : u.consumed with
  | true =>
    rw [UniqueSlice.run_call_consumed _ _ hc] at hrun
    cases hrun
    rfl
  | false =>
    rw [UniqueSlice.run_call_live _ _ hc] at hrun
    cases hrun

/-- Describing a handle never refuses: it reads the storage only for the length of a run it
    records, and a consumed owner aborts. -/
theorem info_faultsAbort (hA : Storage.Atomic π) (codec : Codec H) (name : String) (h : Held H) :
    FaultsAbort (info codec name h : Step σ H Reply) := by
  cases h with
  | typed t => exact (token_faultsAbort codec _).bind fun _ => .pure _
  | slice s => exact (token_faultsAbort codec _).bind fun _ => .pure _
  | sliced s =>
    exact needSliced_faultsAbort.bind fun _ =>
      (FaultsAbort.onStore (Sliced.len_onlyAborts hA s)).bind fun _ =>
      (token_faultsAbort codec _).bind fun _ => .pure _
  | unique u => exact .pure _
  | uslice u => exact (FaultsAbort.onOwner len_onlyAborts).bind fun _ => .pure _

theorem place_faultsAbort (hA : Storage.Atomic π) (codec : Codec H) (name : String)
    (h : Held H) : FaultsAbort (place codec name h : Step σ H Reply) :=
  (FaultsAbort.modify _).bind fun _ => info_faultsAbort hA codec name h

theorem run_needSliced_of_sliced (hs : Storage.isSliced (σ := σ) = true) (b : Bench σ H) :
    (needSliced : Step σ H Unit).run b = .ok () b := by
  unfold needSliced
  rw [if_pos hs]
  rfl

theorem run_needSliced_of_not (hs : Storage.isSliced (σ := σ) = false) (b : Bench σ H) :
    (needSliced : Step σ H Unit).run b = .error (.misuse "storage is not sliced") b := by
  unfold needSliced
  rw [if_neg (by simp [hs])]
  rfl

end Described

/-! ## Refused in the storage -/

/-- A step that asks the storage and then only describes what it got fails with a refusal
    only where the storage refused, and then the bench keeps everything but the storage that
    the refusal left. -/
theorem store_refused {α β : Type} {act : Act σ α} {k : α → Step σ H β}
    (hk : ∀ a, FaultsAbort (k a)) {b b' : Bench σ H} {f : Fault}
    (h : (onStore act >>= k).run b = .error (.fault f) b') (hf : f.aborts = false) :
    ∃ t, act.run b.store = .error f t ∧ b' = { b with store := t } := by
  rcases Act.run_bind_eq_error h with h | ⟨a, b₁, -, hka⟩
  · rw [run_onStore] at h
    cases hact : act.run b.store with
    | ok a s =>
      rw [hact] at h
      cases h
    | error f' t =>
      rw [hact] at h
      cases h
      exact ⟨t, rfl, rfl⟩
  · rw [hk a b₁ f b' hka] at hf
    cases hf

theorem store_aborted {α β : Type} {act : Act σ α} {k : α → Step σ H β} {l : Layout}
    {b : Bench σ H} {f : Fault} {t : σ} (h : act.run b.store = .error f t)
    (hf : f.aborts = false) :
    (onStore (Handle.formOf true l act) >>= k).run b =
      .error (.fault (.allocationAborted l)) { b with store := t } := by
  refine Act.run_bind_error ?_
  rw [run_onStore]
  show (match (Handle.abortOn l act).run b.store with
    | .ok a s => _ | .error f s => _) = _
  rw [Handle.run_abortOn_refused h hf]

/-! ## A refused resize step -/

section Resize

variable [Storage σ H]

/-- A resize step that fails with a refusal leaves the storage as `π` sees it and the
    references as they were; the slot it resized still holds its old handle, and every slot
    holds what it held or a copy of that handle (a run copied to a target slot before the
    resize). The aborting form of the same step fails from the same bench with the abort for
    the layout of the new length. -/
theorem resizeRun_refused (hA : Storage.Atomic π) (codec : Codec H) {b b' : Bench σ H}
    {name fn : String} {newLen : Field Int64} {r : Field Region} {toSlot : Option String}
    {held : Held H} {f : Fault} (hslot : b.slots.lookup name = some held)
    (hrun : (resizeRun codec name fn newLen r false toSlot).run b = .error (.fault f) b')
    (hf : f.aborts = false) :
    π b'.store = π b.store ∧ b'.refs = b.refs ∧ b'.slots.lookup name = some held ∧
      (∀ k, b'.slots.lookup k = b.slots.lookup k ∨ b'.slots.lookup k = some held) ∧
      ∃ n, required newLen = .ok n ∧
        (resizeRun codec name fn newLen r true toSlot).run b =
          .error (.fault (.allocationAborted (Handle.failureLayout held.elem n))) b' := by
  unfold resizeRun at hrun ⊢
  rw [Act.run_bind_ok (run_slot hslot)] at hrun ⊢
  -- the members are read before anything changes; a member that cannot be read is a misuse
  cases hn : required newLen with
  | error e =>
    obtain ⟨m, hm⟩ := run_need_error hn b
    rw [Act.run_bind_error hm] at hrun
    cases hrun
  | ok n =>
  rw [Act.run_bind_ok (run_need_ok hn b)] at hrun ⊢
  cases hr : required r with
  | error e =>
    obtain ⟨m, hm⟩ := run_need_error hr b
    rw [Act.run_bind_error hm] at hrun
    cases hrun
  | ok region =>
  rw [Act.run_bind_ok (run_need_ok hr b)] at hrun ⊢
  cases held with
  | typed t => cases hrun
  | unique u => cases hrun
  | slice s =>
    dsimp only at hrun ⊢
    rw [Act.run_bind_ok (run_setSlot _ _ b)] at hrun ⊢
    cases hform : ResizeForm.partsOf? fn with
    | none =>
      rw [Act.run_bind_error (run_resizeForm_none hform _ _)] at hrun
      cases hrun
    | some parts =>
    rw [Act.run_bind_ok (run_resizeForm_some hform _ _)] at hrun ⊢
    obtain ⟨t, hact, rfl⟩ := store_refused (fun _ => place_faultsAbort hA codec _ _) hrun hf
    refine ⟨Slice.tryResize_firm hA s n _ _ _ _ hact hf, rfl, ?_, fun k => ?_, n, rfl,
      store_aborted hact hf⟩
    · simp [lookup_setSlot, hslot]
    · rw [lookup_setSlot]
      split <;> simp
  | sliced s =>
    dsimp only at hrun ⊢
    rw [Act.run_bind_ok (run_setSlot _ _ b)] at hrun ⊢
    cases hs : Storage.isSliced (σ := σ) with
    | false =>
      rw [Act.run_bind_error (run_needSliced_of_not hs _)] at hrun
      cases hrun
    | true =>
    rw [Act.run_bind_ok (run_needSliced_of_sliced hs _)] at hrun ⊢
    cases hform : ResizeForm.partsOf? fn with
    | none =>
      rw [Act.run_bind_error (run_resizeForm_none hform _ _)] at hrun
      cases hrun
    | some parts =>
    rw [Act.run_bind_ok (run_resizeForm_some hform _ _)] at hrun ⊢
    obtain ⟨t, hact, rfl⟩ := store_refused (fun _ => place_faultsAbort hA codec _ _) hrun hf
    refine ⟨Sliced.tryResize_firm hA s n _ _ _ _ hact hf, rfl, ?_, fun k => ?_, n, rfl,
      store_aborted hact hf⟩
    · simp [lookup_setSlot, hslot]
    · rw [lookup_setSlot]
      split <;> simp
  | uslice u =>
    dsimp only at hrun ⊢
    cases hform : ResizeForm.partsOf? fn with
    | none =>
      rw [Act.run_bind_error (run_resizeForm_none hform _ _)] at hrun
      cases hrun
    | some parts =>
    rw [Act.run_bind_ok (run_resizeForm_some hform _ _)] at hrun ⊢
    cases hc : u.consumed with
    | true =>
      rw [Act.run_bind_error (run_onOwner_refused (UniqueSlice.run_resize_consumed _ _ _ _ hc)
        hslot)] at hrun
      cases hrun
      cases hf
    | false =>
    rcases Act.run_bind_eq_error hrun with h | ⟨r, b₁, -, hk⟩
    · rw [run_onOwner, UniqueSlice.run_resize_live _ _ _ _ hc] at h
      cases hx : (Handle.formOf false (Handle.failureLayout u.inner.elem n)
          (u.inner.tryResize n ⟨parts.1, parts.2.1, if parts.2.2 then some region else none⟩)).run
          b.store with
      | ok r t =>
        rw [hx] at h
        cases h
      | error f' t =>
        rw [hx] at h
        cases h
        rw [Handle.formOf_false] at hx
        have hkeep : putSlot name (.uslice u) b.slots = b.slots := putSlot_of_lookup hslot
        refine ⟨Slice.tryResize_firm hA u.inner n _ _ _ _ hx hf, rfl, by rw [hkeep]; exact hslot,
          fun _ => .inl (by rw [hkeep]), n, rfl, Act.run_bind_error ?_⟩
        rw [run_onOwner, UniqueSlice.run_resize_live _ _ _ _ hc]
        unfold Handle.formOf
        rw [if_pos rfl, Handle.run_abortOn_refused hx hf]
        rfl
    · rw [place_faultsAbort hA codec _ _ b₁ f b' hk] at hf
      cases hf

end Resize

end Step

end Session

/-! ## Refused requests change nothing -/

/-- A refused request changes nothing. A block storage and an inline storage refuse an
    allocation or a resize in any of its forms only before they change anything, their epoch
    included; an address storage only before it changes anything but its epoch. On any such
    storage, the typed runs refuse to allocate or resize only with the storage as it was, and a
    refused resize step leaves the handle it resized in its slot, with the aborting form of the
    step ending in the same bench, aborted for the layout of the new length. -/
theorem refused_requests_change_nothing :
    (Storage.Atomic (σ := BlockStore) id ∧ Storage.Atomic (σ := InlineStore) id ∧
      Storage.Atomic (σ := AddressStore) AddressStore.Kept) ∧
    ∀ {σ H τ : Type} [Storage σ H] {π : σ → τ}, Storage.Atomic π →
      (∀ (e : Elem) (count : Int64) (zeroed : Bool),
        Act.Firm π (Slice.tryAllocate e count zeroed : Act σ (Slice H)) ∧
        Act.Firm π (Sliced.tryAllocate e count zeroed : Act σ (Sliced H))) ∧
      (∀ (s : Slice H) (s' : Sliced H) (newLen : Int64) (form : ResizeForm),
        Act.Firm π (s.tryResize newLen form : Act σ (Slice H)) ∧
        Act.Firm π (s'.tryResize newLen form : Act σ (Sliced H))) ∧
      ∀ (codec : Session.Codec H) (b b' : Session.Bench σ H) (name fn : String) (newLen : Session.Field Int64)
        (r : Session.Field Region) (toSlot : Option String) (held : Session.Held H) (f : Fault),
        b.slots.lookup name = some held →
        (Session.Step.resizeRun codec name fn newLen r false toSlot).run b =
          .error (.fault f) b' →
        f.aborts = false →
        π b'.store = π b.store ∧ b'.refs = b.refs ∧ b'.slots.lookup name = some held ∧
          (∀ k, b'.slots.lookup k = b.slots.lookup k ∨ b'.slots.lookup k = some held) ∧
          ∃ n, Session.required newLen = .ok n ∧
            (Session.Step.resizeRun codec name fn newLen r true toSlot).run b =
              .error (.fault (.allocationAborted (Handle.failureLayout held.elem n))) b' := by
  refine ⟨⟨BlockStore.atomic, InlineStore.atomic, AddressStore.atomic⟩, fun hA => ?_⟩
  refine ⟨fun e count zeroed => ⟨Slice.tryAllocate_firm hA e count zeroed,
    Sliced.tryAllocate_firm hA e count zeroed⟩, fun s s' newLen form =>
    ⟨Slice.tryResize_firm hA s newLen form, Sliced.tryResize_firm hA s' newLen form⟩, ?_⟩
  intro codec b b' name fn newLen r toSlot held f hslot hrun hf
  exact Session.Step.resizeRun_refused hA codec hslot hrun hf

/-- Growing a run of four bytes to eight in an inline storage of four bytes is refused in its
    fits check; in the aborting form it aborts for the eight-byte layout, and the bench, its slot
    included, is as it was. -/
theorem refused_inline_grow_aborts :
    (Session.Step.resizeRun Session.inlineCodec "a" "grow" (.ok 8) (.ok {}) true none).run
        ({ store := { elem := .u8, capacity := 4, bytes := .empty, allocated := true },
           slots := [("a", .slice ⟨.u8, (), 4⟩)] } : Session.Bench InlineStore Unit) =
      .error (.fault (.allocationAborted ⟨8, 1⟩))
        { store := { elem := .u8, capacity := 4, bytes := .empty, allocated := true },
          slots := [("a", .slice ⟨.u8, (), 4⟩)] } := by
  have hbench := (refused_requests_change_nothing.2 InlineStore.atomic).2.2 Session.inlineCodec
    ⟨{ elem := .u8, capacity := 4, bytes := .empty, allocated := true },
      [("a", .slice ⟨.u8, (), 4⟩)], []⟩
    ⟨{ elem := .u8, capacity := 4, bytes := .empty, allocated := true },
      [("a", .slice ⟨.u8, (), 4⟩)], []⟩
    "a" "grow" (.ok 8) (.ok {}) none (.slice ⟨.u8, (), 4⟩) (.inlineTooSmall ⟨8, 1⟩ 4) rfl rfl rfl
  obtain ⟨-, -, -, -, n, hn, habort⟩ := hbench
  cases hn
  exact habort

end BlockArena
