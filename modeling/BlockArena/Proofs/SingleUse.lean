import BlockArena.Proofs.RefusedResize
import BlockArena.Wire.Answer

/-! # Single-use handles

The methods of a `Unique` and a `UniqueSlice` check the owner first. Over the methods
(`OwnerDiscipline`): on a consumed owner every method, resizes included, is refused with
`Fault.consumed`, named `Unique::Method` or `UniqueSlice::Method`, and changes neither the
storage nor the owner; on a live owner a method is the same method of the handle it owns and
leaves the owner consumed exactly where the method consumes; a resize is the same resize of the
plain run and consumes the owner only where that answers.

The handle steps of a storage request call these methods on the owner a slot holds
(`Session.MethodCall`). Over the steps (`Session.SingleUse`): on a consumed owner every call
fails with its consumed fault and leaves the bench as it was (`Step.perform_of_consumed`);
freeing, giving up ownership and a resize that answers consume the owner in its slot
(`Step.free_consumes`, `Step.convert_consumes`, `Step.resize_consumes`); and a resize that fails
leaves it live over the same run (`Step.resize_failure_keeps`).
-/

set_option autoImplicit false

namespace BlockArena

/-! ## The methods -/

section Methods

variable {σ H : Type} [Storage σ H]

/-- Where the `try` form of a resize is refused, the aborting form aborts for the layout of the
    new length, leaving the storage and the owner as the `try` form did. -/
theorem UniqueSlice.run_resize_refused_aborts {u : UniqueSlice H} (hc : u.consumed = false)
    {newLen : Int64} {form : ResizeForm} {s : σ} {f : Fault} {p : σ × UniqueSlice H}
    (hrun : (UniqueSlice.resize false newLen form).run (s, u) = .error f p)
    (hf : f.aborts = false) :
    (UniqueSlice.resize true newLen form).run (s, u) =
      .error (.allocationAborted (Handle.failureLayout u.inner.elem newLen)) p := by
  rw [UniqueSlice.run_resize_live _ _ _ _ hc] at hrun ⊢
  cases hx : (Handle.formOf false (Handle.failureLayout u.inner.elem newLen)
      (u.inner.tryResize newLen form)).run s with
  | ok r t =>
    rw [hx] at hrun
    cases hrun
  | error f' t =>
    rw [hx] at hrun
    cases hrun
    rw [Handle.formOf_false] at hx
    unfold Handle.formOf
    rw [if_pos rfl, Handle.run_abortOn_refused hx hf]

end Methods

/-- Owners are single-use, method by method: what the consumed flag makes of every call of a
    method of an owner, on a storage of type `σ`. -/
structure OwnerDiscipline (σ H : Type) [Storage σ H] : Prop where
  /-- On a consumed `Unique` every method is refused, naming it, and neither the storage nor the
      owner changes. -/
  unique_refuses : ∀ {α : Type} (m : Unique.Method H α) (s : σ) (u : Unique H),
    u.consumed = true → (Unique.call m).run (s, u) = .error (.consumed (Unique.opName m.name)) (s, u)
  /-- So is every method of a consumed `UniqueSlice`. -/
  slice_refuses : ∀ {α : Type} (m : UniqueSlice.Method H α) (s : σ) (u : UniqueSlice H),
    u.consumed = true →
    (UniqueSlice.call m).run (s, u) = .error (.consumed (UniqueSlice.opName m.name)) (s, u)
  /-- And every resize of one, in either form. -/
  resize_refuses : ∀ (aborting : Bool) (newLen : Int64) (form : ResizeForm) (s : σ)
    (u : UniqueSlice H), u.consumed = true →
    (UniqueSlice.resize aborting newLen form).run (s, u) =
      .error (.consumed (UniqueSlice.opName (UniqueSlice.resizeMethod aborting form))) (s, u)
  /-- On a live `Unique` a method is the same method of the handle it owns, and leaves the owner
      consumed, whatever the storage answers, exactly where the method consumes. -/
  unique_live : ∀ {α : Type} (m : Unique.Method H α) (s : σ) (u : Unique H),
    u.consumed = false → (Unique.call m).run (s, u) = match (m.onInner u.inner).run s with
      | .ok a t => .ok a (t, if m.consumes then { u with consumed := true } else u)
      | .error f t => .error f (t, if m.consumes then { u with consumed := true } else u)
  /-- So is a method of a live `UniqueSlice`, on the run it owns. -/
  slice_live : ∀ {α : Type} (m : UniqueSlice.Method H α) (s : σ) (u : UniqueSlice H),
    u.consumed = false → (UniqueSlice.call m).run (s, u) = match (m.onInner u.inner).run s with
      | .ok a t => .ok a (t, if m.consumes then { u with consumed := true } else u)
      | .error f t => .error f (t, if m.consumes then { u with consumed := true } else u)
  /-- A resize of a live owner is the same resize of the run it owns. Where that answers, the
      owner is consumed and the answer is a fresh, live owner of the new run; where it fails, in
      either form, the owner is as it was. -/
  resize_live : ∀ (aborting : Bool) (newLen : Int64) (form : ResizeForm) (s : σ)
    (u : UniqueSlice H), u.consumed = false →
    (UniqueSlice.resize aborting newLen form).run (s, u) =
      match (Handle.formOf aborting (Handle.failureLayout u.inner.elem newLen)
          (u.inner.tryResize newLen form)).run s with
      | .ok r t => .ok ⟨r, false⟩ (t, { u with consumed := true })
      | .error f t => .error f (t, u)
  /-- Where the `try` form of a resize is refused, the aborting form aborts for the layout of the
      new length, leaving the same storage and owner. -/
  resize_aborts : ∀ (newLen : Int64) (form : ResizeForm) (s : σ) (u : UniqueSlice H) (f : Fault)
    (p : σ × UniqueSlice H), u.consumed = false →
    (UniqueSlice.resize false newLen form).run (s, u) = .error f p → f.aborts = false →
    (UniqueSlice.resize true newLen form).run (s, u) =
      .error (.allocationAborted (Handle.failureLayout u.inner.elem newLen)) p

theorem OwnerDiscipline.holds {σ H : Type} [Storage σ H] : OwnerDiscipline σ H where
  unique_refuses m s _ hc := Unique.run_call_consumed m s hc
  slice_refuses m s _ hc := UniqueSlice.run_call_consumed m s hc
  resize_refuses aborting newLen form s _ hc :=
    UniqueSlice.run_resize_consumed aborting newLen form s hc
  unique_live m s _ hc := Unique.run_call_live m s hc
  slice_live m s _ hc := UniqueSlice.run_call_live m s hc
  resize_live aborting newLen form s _ hc := UniqueSlice.run_resize_live aborting newLen form s hc
  resize_aborts _ _ _ _ _ _ hc hrun hf := UniqueSlice.run_resize_refused_aborts hc hrun hf

namespace Session

variable {σ H : Type}

/-! ## Owners in slots -/

namespace Held

/-- The slot holds a single owner. -/
def IsOwner : Held H → Prop
  | .unique _ | .uslice _ => True
  | _ => False

/-- The slot holds a single owner that has not been consumed. -/
def Live : Held H → Prop
  | .unique u => u.consumed = false
  | .uslice u => u.consumed = false
  | _ => False

/-- The slot holds a single owner that has been consumed. -/
def Consumed : Held H → Prop
  | .unique u => u.consumed = true
  | .uslice u => u.consumed = true
  | _ => False

/-- The owner, marked consumed. -/
def consume : Held H → Held H
  | .unique u => .unique { u with consumed := true }
  | .uslice u => .uslice { u with consumed := true }
  | h => h

/-- The plain handle an owner gives up. -/
def release : Held H → Held H
  | .unique u => .typed u.inner
  | .uslice u => .slice u.inner
  | h => h

/-- The full name of an owner's method: `Unique::m` or `UniqueSlice::m`. -/
def opName : Held H → String → String
  | .uslice _, m => UniqueSlice.opName m
  | _, m => Unique.opName m

end Held

/-- Step `st` calls method `m` of the handle `held` in slot `name`, once the members it reads
    before the call are readable: the handle steps of a storage request on a single owner. A
    step that is not in this list asks no method of an owner: it is refused as unavailable for
    the kind, or, describing a `Unique`, reports its kind and element only. -/
inductive MethodCall (name : String) : Held H → StoreStep → String → Prop
  | info (u : UniqueSlice H) : MethodCall name (.uslice u) (.handleInfo name) "Len"
  | len (u : UniqueSlice H) : MethodCall name (.uslice u) (.handleLen name) "Len"
  | isEmpty (u : UniqueSlice H) : MethodCall name (.uslice u) (.handleIsEmpty name) "IsEmpty"
  | resolve (u : Unique H) (mode : String) :
      MethodCall name (.unique u) (.handleResolve name mode) (Step.ResolveMode.ofName mode).method
  | resolveRun (u : UniqueSlice H) (mode : String)
      (hmode : (Step.ResolveMode.ofName mode).isRaw = false) :
      MethodCall name (.uslice u) (.handleResolve name mode) (Step.ResolveMode.ofName mode).method
  | write (held : Held H) (index : Field Int64) (value : Field ByteArray) (i : Int64)
      (bytes : ByteArray) (howner : held.IsOwner) (hindex : required index = .ok i)
      (hvalue : required value = .ok bytes) (hsize : bytes.size = held.elem.size.toNatClampNeg) :
      MethodCall name held (.handleWrite name index value) "ResolveMut"
  | dealloc (held : Held H) (howner : held.IsOwner) :
      MethodCall name held (.handleDealloc name) "Deallocate"
  | ref (held : Held H) (refName : String) (howner : held.IsOwner) :
      MethodCall name held (.handleRef name refName) "Ref"
  | intoTyped (u : Unique H) (toSlot : Option String) :
      MethodCall name (.unique u) (.handleInto name toSlot) "IntoTypedSingle"
  | intoSlice (u : UniqueSlice H) (toSlot : Option String) :
      MethodCall name (.uslice u) (.handleInto name toSlot) "IntoTypedSlice"
  | resize (u : UniqueSlice H) (fn : String) (newLen : Field Int64) (r : Field Region)
      (aborting : Bool) (toSlot : Option String) (n : Int64) (region : Region)
      (parts : Bool × Bool × Bool) (hlen : required newLen = .ok n)
      (hregion : required r = .ok region) (hform : ResizeForm.partsOf? fn = some parts) :
      MethodCall name (.uslice u) (.handleResize name fn newLen r aborting toSlot)
        (UniqueSlice.resizeMethod aborting
          ⟨parts.1, parts.2.1, if parts.2.2 then some region else none⟩)

namespace Step

/-- The bench a step leaves, whether it answers or fails. -/
def leaves {α : Type} [Storage σ H] (x : Step σ H α) (b : Bench σ H) : Bench σ H :=
  match x.run b with
  | .ok _ b' => b'
  | .error _ b' => b'

/-! ## The methods a step calls -/

theorem ResolveMode.unique_resolve_name {m : ResolveMode} (hm : m.isRaw = false) :
    (Unique.Method.resolve (H := H) m.isMutable).name = m.method := by
  cases m <;> first | rfl | simp [ResolveMode.isRaw] at hm

theorem ResolveMode.unique_resolveRaw_name {m : ResolveMode} (hm : m.isRaw = true) :
    (Unique.Method.resolveRaw (H := H) m.isMutable).name = m.method := by
  cases m <;> first | rfl | simp [ResolveMode.isRaw] at hm

theorem ResolveMode.slice_resolve_name {m : ResolveMode} (hm : m.isRaw = false) :
    (UniqueSlice.Method.resolve (H := H) m.isMutable).name = m.method := by
  cases m <;> first | rfl | simp [ResolveMode.isRaw] at hm

theorem run_value_ok {e : Elem} {v : Field ByteArray} {bytes : ByteArray}
    (hv : required v = .ok bytes) (hsize : bytes.size = e.size.toNatClampNeg) (b : Bench σ H) :
    (value e v : Step σ H ByteArray).run b = .ok bytes b := by
  unfold value
  rw [Act.run_bind_ok (run_need_ok hv b), if_pos hsize]
  rfl

theorem run_onStore_ok {α : Type} {act : Act σ α} {b : Bench σ H} {s t : σ} {a : α}
    (h : act.run s = .ok a t) (hs : b.store = s) :
    (onStore act : Step σ H α).run b = .ok a { b with store := t } := by
  rw [run_onStore, hs, h]

/-- A call that answers and leaves the storage and the owner in slot `name` as they were
    leaves the bench as it was. -/
theorem run_onOwner_kept {O α : Type} {name : String} {wrap : O → Held H} {o : O}
    {act : Act (σ × O) α} {b : Bench σ H} {a : α} (hact : act.run (b.store, o) = .ok a (b.store, o))
    (hslot : b.slots.lookup name = some (wrap o)) :
    (onOwner name wrap o act).run b = .ok a b := by
  rw [run_onOwner, hact]
  simp only [putSlot_of_lookup hslot]

theorem run_onOwner_then {O α β : Type} (name : String) (wrap : O → Held H) (o : O)
    (act : Act (σ × O) α) (r : β) (b : Bench σ H) :
    (onOwner name wrap o act >>= fun _ => pure r : Step σ H β).run b =
      match act.run (b.store, o) with
      | .ok _ p => .ok r { b with store := p.1, slots := putSlot name (wrap p.2) b.slots }
      | .error f p =>
        .error (.fault f) { b with store := p.1, slots := putSlot name (wrap p.2) b.slots } := by
  cases h : act.run (b.store, o) with
  | ok a p =>
    rw [Act.run_bind_ok (show (onOwner name wrap o act : Step σ H α).run b = _ by
      rw [run_onOwner, h])]
    rfl
  | error f p => exact Act.run_bind_error (by rw [run_onOwner, h])

variable [Storage σ H]

/-! ## A consumed owner refuses every call -/

section Consumed

variable (codec : Codec H) (manager : Manager σ) {b : Bench σ H} {name : String}

/-- Every method call on a consumed owner fails with the consumed fault for that method, and
    changes nothing: the owner's check comes before the storage is asked. -/
theorem perform_of_consumed {held : Held H} {st : StoreStep} {m : String}
    (hslot : b.slots.lookup name = some held) (hc : held.Consumed)
    (hcall : MethodCall name held st m) (hm : manager st = none) :
    (perform codec manager st).run b = .error (.fault (.consumed (held.opName m))) b := by
  unfold perform
  rw [hm]
  cases hcall with
  | info u =>
    rw [Act.run_bind_ok (run_slot hslot)]
    exact Act.run_bind_error (run_onOwner_refused (UniqueSlice.run_call_consumed .len _ hc) hslot)
  | len u =>
    refine Act.run_bind_error ?_
    unfold length
    rw [Act.run_bind_ok (run_slot hslot)]
    exact run_onOwner_refused (UniqueSlice.run_call_consumed .len _ hc) hslot
  | isEmpty u =>
    refine Act.run_bind_error ?_
    unfold emptiness
    rw [Act.run_bind_ok (run_slot hslot)]
    exact run_onOwner_refused (UniqueSlice.run_call_consumed .isEmpty _ hc) hslot
  | resolve u mode =>
    unfold resolveIn
    rw [Act.run_bind_ok (run_slot hslot)]
    dsimp only
    -- the mode picks the method, raw or not, and the method bears the mode's name
    cases hraw : (ResolveMode.ofName mode).isRaw
    · have h := Unique.run_call_consumed (.resolve (ResolveMode.ofName mode).isMutable) b.store hc
      rw [ResolveMode.unique_resolve_name hraw] at h
      rw [if_neg Bool.false_ne_true]
      exact Act.run_bind_error (run_onOwner_refused h hslot)
    · have h := Unique.run_call_consumed (.resolveRaw (ResolveMode.ofName mode).isMutable) b.store hc
      rw [ResolveMode.unique_resolveRaw_name hraw] at h
      rw [if_pos rfl]
      exact Act.run_bind_error (run_onOwner_refused h hslot)
  | resolveRun u mode hmode =>
    unfold resolveIn
    rw [Act.run_bind_ok (run_slot hslot)]
    dsimp only
    have h := UniqueSlice.run_call_consumed (.resolve (ResolveMode.ofName mode).isMutable) b.store hc
    rw [ResolveMode.slice_resolve_name hmode] at h
    rw [if_neg (by simp [hmode])]
    exact Act.run_bind_error (run_onOwner_refused h hslot)
  | write held index value i bytes howner hindex hvalue hsize =>
    unfold writeThrough
    rw [Act.run_bind_ok (run_slot hslot), Act.run_bind_ok (run_value_ok hvalue hsize b),
      Act.run_bind_ok (run_need_ok hindex b)]
    -- the bytes and the index are read; only the owner's call is left before the storage
    cases held with
    | unique u =>
      exact Act.run_bind_error
        (run_onOwner_refused (Unique.run_call_consumed (.resolve true) _ hc) hslot)
    | uslice u =>
      exact Act.run_bind_error
        (run_onOwner_refused (UniqueSlice.run_call_consumed (.resolve true) _ hc) hslot)
    | typed t => cases hc
    | slice s => cases hc
    | sliced s => cases hc
  | dealloc held howner =>
    unfold free
    rw [Act.run_bind_ok (run_slot hslot)]
    cases held with
    | unique u =>
      exact Act.run_bind_error
        (run_onOwner_refused (Unique.run_call_consumed .deallocate _ hc) hslot)
    | uslice u =>
      exact Act.run_bind_error
        (run_onOwner_refused (UniqueSlice.run_call_consumed .deallocate _ hc) hslot)
    | typed t => cases hc
    | slice s => cases hc
    | sliced s => cases hc
  | ref held refName howner =>
    unfold takeRef
    rw [Act.run_bind_ok (run_slot hslot)]
    cases held with
    | unique u =>
      exact Act.run_bind_error (run_onOwner_refused (Unique.run_call_consumed .ref _ hc) hslot)
    | uslice u =>
      exact Act.run_bind_error
        (run_onOwner_refused (UniqueSlice.run_call_consumed .ref _ hc) hslot)
    | typed t => cases hc
    | slice s => cases hc
    | sliced s => cases hc
  | intoTyped u toSlot =>
    unfold convert
    rw [Act.run_bind_ok (run_slot hslot)]
    exact Act.run_bind_error
      (run_onOwner_refused (Unique.run_call_consumed .intoTypedSingle _ hc) hslot)
  | intoSlice u toSlot =>
    unfold convert
    rw [Act.run_bind_ok (run_slot hslot)]
    exact Act.run_bind_error
      (run_onOwner_refused (UniqueSlice.run_call_consumed .intoTypedSlice _ hc) hslot)
  | resize u fn newLen r aborting toSlot n region parts hlen hregion hform =>
    unfold resizeRun
    rw [Act.run_bind_ok (run_slot hslot), Act.run_bind_ok (run_need_ok hlen b),
      Act.run_bind_ok (run_need_ok hregion b)]
    dsimp only
    rw [Act.run_bind_ok (run_resizeForm_some hform region b)]
    exact Act.run_bind_error
      (run_onOwner_refused (UniqueSlice.run_resize_consumed _ _ _ _ hc) hslot)

/-- A run of method calls on a consumed owner answers each with the consumed fault for its
    method: no call changes the bench, so the owner stays consumed for the next. -/
theorem runSteps_of_consumed {held : Held H} (hslot : b.slots.lookup name = some held)
    (hc : held.Consumed) (hm : ∀ st m, MethodCall name held st m → manager st = none) :
    ∀ calls : List StoreStep, (∀ st ∈ calls, ∃ m, MethodCall name held st m) →
      List.Forall₂ (fun st a => ∃ m, MethodCall name held st m ∧
        a = .error (.fault (.consumed (held.opName m)))) calls (runSteps codec manager b calls)
  | [], _ => .nil
  | st :: rest, hcalls => by
    obtain ⟨m, hcall⟩ := hcalls st List.mem_cons_self
    have hrun := perform_of_consumed codec manager hslot hc hcall (hm st m hcall)
    unfold runSteps
    rw [show EStateM.run (perform codec manager st) b = _ from hrun]
    exact .cons ⟨m, hcall, rfl⟩ (runSteps_of_consumed hslot hc hm rest
      fun st' hst' => hcalls st' (List.mem_cons_of_mem st hst'))

end Consumed

/-! ## Calls that consume -/

section Consuming

variable (codec : Codec H) (manager : Manager σ) {b : Bench σ H} {name : String}

/-- Freeing consumes the owner before the storage frees the allocation, so the slot holds the
    owner consumed whether the storage answers or aborts. -/
theorem free_consumes {held : Held H} (hslot : b.slots.lookup name = some held)
    (hl : held.Live) (hm : manager (.handleDealloc name) = none) :
    ((perform codec manager (.handleDealloc name)).leaves b).slots.lookup name =
      some held.consume := by
  unfold leaves perform
  rw [hm]
  unfold free
  rw [Act.run_bind_ok (run_slot hslot)]
  cases held with
  | unique u =>
    rw [run_onOwner_then, Unique.run_call_live _ _ hl]
    cases (Unique.Method.deallocate.onInner u.inner).run b.store <;>
      simp [lookup_putSlot hslot, Unique.Method.consumes, Held.consume]
  | uslice u =>
    rw [run_onOwner_then, UniqueSlice.run_call_live _ _ hl]
    cases (UniqueSlice.Method.deallocate.onInner u.inner).run b.store <;>
      simp [lookup_putSlot hslot, UniqueSlice.Method.consumes, Held.consume]
  | typed t => cases hl
  | slice s => cases hl
  | sliced s => cases hl

/-- Giving up ownership always answers: the plain handle goes to the target slot, and the owner,
    where it is still in its slot, is consumed; the storage is not asked. -/
theorem convert_consumes {held : Held H} (hslot : b.slots.lookup name = some held)
    (hl : held.Live) (toSlot : Option String) (hm : manager (.handleInto name toSlot) = none) :
    ∃ rep b', (perform codec manager (.handleInto name toSlot)).run b = .ok rep b' ∧
      b'.store = b.store ∧ b'.slots.lookup (toSlot.getD name) = some held.release ∧
      (toSlot.getD name ≠ name → b'.slots.lookup name = some held.consume) := by
  unfold perform
  rw [hm]
  unfold convert
  rw [Act.run_bind_ok (run_slot hslot)]
  cases held with
  | unique u =>
    have hcall : (onOwner name .unique u (Unique.call .intoTypedSingle)).run b =
        .ok u.inner { b with slots := putSlot name (.unique { u with consumed := true }) b.slots } := by
      rw [run_onOwner, Unique.run_call_live _ _ hl]
      rfl
    rw [Act.run_bind_ok hcall]
    unfold place
    rw [Act.run_bind_ok (run_setSlot _ _ _)]
    refine ⟨_, _, rfl, rfl, by simp [Held.release], fun hne => ?_⟩
    rw [lookup_setSlot, if_neg (Ne.symm hne), lookup_putSlot hslot, if_pos rfl]
    rfl
  | uslice u =>
    have hcall : (onOwner name .uslice u (UniqueSlice.call .intoTypedSlice)).run b =
        .ok u.inner { b with slots := putSlot name (.uslice { u with consumed := true }) b.slots } := by
      rw [run_onOwner, UniqueSlice.run_call_live _ _ hl]
      rfl
    rw [Act.run_bind_ok hcall]
    unfold place
    rw [Act.run_bind_ok (run_setSlot _ _ _)]
    refine ⟨_, _, rfl, rfl, by simp [Held.release], fun hne => ?_⟩
    rw [lookup_setSlot, if_neg (Ne.symm hne), lookup_putSlot hslot, if_pos rfl]
    rfl
  | typed t => cases hl
  | slice s => cases hl
  | sliced s => cases hl

/-! ## Resizing a unique run -/

variable {u : UniqueSlice H} {fn : String} {newLen : Field Int64} {r : Field Region}
  {aborting : Bool} {toSlot : Option String} {n : Int64} {region : Region}
  {parts : Bool × Bool × Bool}

/-- The resize of a unique run, step by step: past the members, the owner's resize runs the
    resize of the plain run on the storage; on an answer the owner is consumed in its slot and a
    fresh one, over the new run, goes to the target slot, and on a failure only the storage has
    changed. -/
theorem run_resize_owner (hslot : b.slots.lookup name = some (.uslice u)) (hl : u.consumed = false)
    (hlen : required newLen = .ok n) (hregion : required r = .ok region)
    (hform : ResizeForm.partsOf? fn = some parts)
    (hm : manager (.handleResize name fn newLen r aborting toSlot) = none) :
    (perform codec manager (.handleResize name fn newLen r aborting toSlot)).run b =
      match (Handle.formOf aborting (Handle.failureLayout u.inner.elem n)
          (u.inner.tryResize n ⟨parts.1, parts.2.1, if parts.2.2 then some region else none⟩)).run
          b.store with
      | .ok s t => .ok (.info "uslice" s.elem.name none (some s.len.toInt))
          { b with store := t, slots := (toSlot.getD name, .uslice ⟨s, false⟩) ::
            ((putSlot name (.uslice { u with consumed := true }) b.slots).filter
              (·.1 != toSlot.getD name)) }
      | .error f t => .error (.fault f) { b with store := t } := by
  unfold perform
  rw [hm]
  unfold resizeRun
  rw [Act.run_bind_ok (run_slot hslot), Act.run_bind_ok (run_need_ok hlen b),
    Act.run_bind_ok (run_need_ok hregion b)]
  dsimp only
  rw [Act.run_bind_ok (run_resizeForm_some hform region b)]
  cases hx : (Handle.formOf aborting (Handle.failureLayout u.inner.elem n)
      (u.inner.tryResize n ⟨parts.1, parts.2.1, if parts.2.2 then some region else none⟩)).run
      b.store with
  | ok s t =>
    have hcall : (onOwner name .uslice u (UniqueSlice.resize aborting n
        ⟨parts.1, parts.2.1, if parts.2.2 then some region else none⟩)).run b =
        .ok ⟨s, false⟩
          { b with store := t, slots := putSlot name (.uslice { u with consumed := true }) b.slots } := by
      rw [run_onOwner, UniqueSlice.run_resize_live _ _ _ _ hl, hx]
    rw [Act.run_bind_ok hcall]
    unfold place
    rw [Act.run_bind_ok (run_setSlot _ _ _)]
    -- describing the fresh owner asks it for its length, which changes nothing
    unfold info
    rw [Act.run_bind_ok (run_onOwner_kept (by rw [UniqueSlice.run_call_live _ _ rfl]; rfl)
      (by simp))]
    rfl
  | error f t =>
    refine Act.run_bind_error ?_
    rw [run_onOwner, UniqueSlice.run_resize_live _ _ _ _ hl, hx]
    simp only [putSlot_of_lookup hslot]

/-- The same resize of the plain run: the slot is copied to the target, and the run the storage
    answers goes there. -/
theorem run_resize_plain {sl : Slice H} {s : Slice H} {t : σ}
    (hslot : b.slots.lookup name = some (.slice sl))
    (hlen : required newLen = .ok n) (hregion : required r = .ok region)
    (hform : ResizeForm.partsOf? fn = some parts)
    (hm : manager (.handleResize name fn newLen r aborting toSlot) = none)
    (hx : (Handle.formOf aborting (Handle.failureLayout sl.elem n)
      (sl.tryResize n ⟨parts.1, parts.2.1, if parts.2.2 then some region else none⟩)).run
        b.store = .ok s t) :
    ∃ rep b', (perform codec manager (.handleResize name fn newLen r aborting toSlot)).run b =
      .ok rep b' ∧ b'.store = t ∧ b'.slots.lookup (toSlot.getD name) = some (.slice s) := by
  unfold perform
  rw [hm]
  unfold resizeRun
  rw [Act.run_bind_ok (run_slot hslot), Act.run_bind_ok (run_need_ok hlen b),
    Act.run_bind_ok (run_need_ok hregion b)]
  dsimp only
  rw [Act.run_bind_ok (run_setSlot _ _ _), Act.run_bind_ok (run_resizeForm_some hform region _),
    Act.run_bind_ok (run_onStore_ok hx ?_)]
  · unfold place
    rw [Act.run_bind_ok (run_setSlot _ _ _)]
    exact ⟨_, _, rfl, rfl, by simp⟩
  · rfl

/-- A resize that answers consumes the owner, where it is still in its slot, and puts a fresh
    owner in the target slot over the run that the same resize of the plain run gives, with the
    storage the same. -/
theorem resize_consumes {rep : Reply} {b' : Bench σ H}
    (hslot : b.slots.lookup name = some (.uslice u)) (hl : u.consumed = false)
    (hlen : required newLen = .ok n) (hregion : required r = .ok region)
    (hform : ResizeForm.partsOf? fn = some parts)
    (hm : manager (.handleResize name fn newLen r aborting toSlot) = none)
    (hrun : (perform codec manager (.handleResize name fn newLen r aborting toSlot)).run b =
      .ok rep b') :
    (toSlot.getD name ≠ name → b'.slots.lookup name = some (.uslice { u with consumed := true })) ∧
      ∃ s, b'.slots.lookup (toSlot.getD name) = some (.uslice ⟨s, false⟩) ∧
        ∀ b₀ : Bench σ H, b₀.store = b.store → b₀.slots.lookup name = some (.slice u.inner) →
          ∃ rep₀ b₀', (perform codec manager (.handleResize name fn newLen r aborting toSlot)).run
            b₀ = .ok rep₀ b₀' ∧ b₀'.store = b'.store ∧
            b₀'.slots.lookup (toSlot.getD name) = some (.slice s) := by
  rw [run_resize_owner codec manager hslot hl hlen hregion hform hm] at hrun
  split at hrun
  · rename_i s t hx
    cases hrun
    refine ⟨fun hne => ?_, s, by simp, fun b₀ hstore h₀ => ?_⟩
    · rw [lookup_setSlot, if_neg (Ne.symm hne), lookup_putSlot hslot, if_pos rfl]
    · rw [← hstore] at hx
      exact run_resize_plain codec manager h₀ hlen hregion hform hm hx
  · cases hrun

/-- A resize that fails, in either form and whatever the failure, leaves the owner in its slot,
    unconsumed and over the same run. -/
theorem resize_failure_keeps {e : Failure} {b' : Bench σ H}
    (hslot : b.slots.lookup name = some (.uslice u)) (hl : u.consumed = false)
    (hlen : required newLen = .ok n) (hregion : required r = .ok region)
    (hform : ResizeForm.partsOf? fn = some parts)
    (hm : manager (.handleResize name fn newLen r aborting toSlot) = none)
    (hrun : (perform codec manager (.handleResize name fn newLen r aborting toSlot)).run b =
      .error e b') :
    b'.slots.lookup name = some (.uslice u) := by
  rw [run_resize_owner codec manager hslot hl hlen hregion hform hm] at hrun
  split at hrun
  · cases hrun
  · cases hrun
    exact hslot

/-- Where the `try` form of a resize is refused, the aborting form from the same bench aborts
    for the layout of the new length, leaving the same bench. -/
theorem resize_refused_aborts {f : Fault} {b' : Bench σ H}
    (hslot : b.slots.lookup name = some (.uslice u)) (hl : u.consumed = false)
    (hlen : required newLen = .ok n) (hregion : required r = .ok region)
    (hform : ResizeForm.partsOf? fn = some parts)
    (hm : ∀ aborting, manager (.handleResize name fn newLen r aborting toSlot) = none)
    (hrun : (perform codec manager (.handleResize name fn newLen r false toSlot)).run b =
      .error (.fault f) b') (hf : f.aborts = false) :
    (perform codec manager (.handleResize name fn newLen r true toSlot)).run b =
      .error (.fault (.allocationAborted (Handle.failureLayout u.inner.elem n))) b' := by
  rw [run_resize_owner codec manager hslot hl hlen hregion hform (hm false)] at hrun
  rw [run_resize_owner codec manager hslot hl hlen hregion hform (hm true)]
  split at hrun
  · cases hrun
  · rename_i f' t hx
    cases hrun
    rw [Handle.formOf_false] at hx
    unfold Handle.formOf
    rw [if_pos rfl, Handle.run_abortOn_refused hx hf]

end Consuming

end Step

/-! ## The discipline -/

/-- Owners are single-use over the handle steps of a storage request: what the consumed flag
    guarantees about every call on an owner, whatever the storage and the bench. -/
structure SingleUse [Storage σ H] (codec : Codec H) (manager : Manager σ) : Prop where
  /-- On a consumed owner every method call fails with the consumed fault for its method and
      leaves the bench as it was: no storage call is made. -/
  refuses : ∀ (b : Bench σ H) (name : String) (held : Held H) (st : StoreStep) (m : String),
    b.slots.lookup name = some held → held.Consumed → MethodCall name held st m →
    (Step.perform codec manager st).run b = .error (.fault (.consumed (held.opName m))) b
  /-- So every sequence of such calls answers each with its fault. -/
  refuses_all : ∀ (b : Bench σ H) (name : String) (held : Held H) (calls : List StoreStep),
    b.slots.lookup name = some held → held.Consumed →
    (∀ st ∈ calls, ∃ m, MethodCall name held st m) →
    List.Forall₂ (fun st a => ∃ m, MethodCall name held st m ∧
      a = .error (.fault (.consumed (held.opName m)))) calls (runSteps codec manager b calls)
  /-- Freeing a live owner consumes it, whatever the storage answers. -/
  frees : ∀ (b : Bench σ H) (name : String) (held : Held H),
    b.slots.lookup name = some held → held.Live →
    ((Step.perform codec manager (.handleDealloc name)).leaves b).slots.lookup name =
      some held.consume
  /-- Giving up ownership answers with the plain handle in the target slot, the storage
      untouched, and the owner consumed. -/
  releases : ∀ (b : Bench σ H) (name : String) (held : Held H) (toSlot : Option String),
    b.slots.lookup name = some held → held.Live →
    ∃ rep b', (Step.perform codec manager (.handleInto name toSlot)).run b = .ok rep b' ∧
      b'.store = b.store ∧ b'.slots.lookup (toSlot.getD name) = some held.release ∧
      (toSlot.getD name ≠ name → b'.slots.lookup name = some held.consume)
  /-- A resize of a live run that answers consumes the owner and leaves a fresh, live owner over
      the run the same resize of the plain run gives. -/
  resizes : ∀ (b b' : Bench σ H) (rep : Reply) (name fn : String) (u : UniqueSlice H)
    (newLen : Field Int64) (r : Field Region) (aborting : Bool) (toSlot : Option String)
    (n : Int64) (region : Region) (parts : Bool × Bool × Bool),
    b.slots.lookup name = some (.uslice u) → u.consumed = false →
    required newLen = .ok n → required r = .ok region → ResizeForm.partsOf? fn = some parts →
    (Step.perform codec manager (.handleResize name fn newLen r aborting toSlot)).run b =
      .ok rep b' →
    (toSlot.getD name ≠ name → b'.slots.lookup name = some (.uslice { u with consumed := true })) ∧
      ∃ s, b'.slots.lookup (toSlot.getD name) = some (.uslice ⟨s, false⟩) ∧
        ∀ b₀ : Bench σ H, b₀.store = b.store → b₀.slots.lookup name = some (.slice u.inner) →
          ∃ rep₀ b₀', (Step.perform codec manager
              (.handleResize name fn newLen r aborting toSlot)).run b₀ = .ok rep₀ b₀' ∧
            b₀'.store = b'.store ∧ b₀'.slots.lookup (toSlot.getD name) = some (.slice s)
  /-- A resize that fails, in either form, leaves the owner live over the same run. -/
  keeps : ∀ (b b' : Bench σ H) (e : Failure) (name fn : String) (u : UniqueSlice H)
    (newLen : Field Int64) (r : Field Region) (aborting : Bool) (toSlot : Option String)
    (n : Int64) (region : Region) (parts : Bool × Bool × Bool),
    b.slots.lookup name = some (.uslice u) → u.consumed = false →
    required newLen = .ok n → required r = .ok region → ResizeForm.partsOf? fn = some parts →
    (Step.perform codec manager (.handleResize name fn newLen r aborting toSlot)).run b =
      .error e b' →
    b'.slots.lookup name = some (.uslice u)
  /-- Where the `try` form is refused, the aborting form aborts for the layout of the new
      length, leaving the same bench. -/
  aborts : ∀ (b b' : Bench σ H) (f : Fault) (name fn : String) (u : UniqueSlice H)
    (newLen : Field Int64) (r : Field Region) (toSlot : Option String)
    (n : Int64) (region : Region) (parts : Bool × Bool × Bool),
    b.slots.lookup name = some (.uslice u) → u.consumed = false →
    required newLen = .ok n → required r = .ok region → ResizeForm.partsOf? fn = some parts →
    (Step.perform codec manager (.handleResize name fn newLen r false toSlot)).run b =
      .error (.fault f) b' → f.aborts = false →
    (Step.perform codec manager (.handleResize name fn newLen r true toSlot)).run b =
      .error (.fault (.allocationAborted (Handle.failureLayout u.inner.elem n))) b'

/-- The answer a call on a consumed owner gets: a `ConsumedHandleError` that panics, naming the
    owner's type and method. -/
theorem Held.consumed_members (held : Held H) (m : String) :
    Wire.failureMembers (.fault (.consumed (held.opName m))) =
      [("error", .str "ConsumedHandleError"),
        ("message", .str (held.opName m ++ ": use of consumed unique handle")),
        ("panic", .bool true)] := rfl

end Session

/-- Unique handles are single-use. On any storage, over the methods of the owners and over the
    handle steps of any manager that leaves them to the handles: once an owner is consumed (by
    giving up ownership, by freeing, or by a resize that succeeds), every later call of one of
    its methods makes no storage call and fails with a panicking `ConsumedHandleError` reading
    `Unique::Method` or `UniqueSlice::Method` followed by `: use of consumed unique handle`; a
    resize that succeeds answers a fresh owner of the run the same resize of the plain run gives,
    a resize that fails leaves the owner live over the same run, and a refused `try` resize means
    the aborting form aborts for the new layout. -/
theorem unique_handles_are_single_use {σ H : Type} [Storage σ H] (codec : Session.Codec H)
    (manager : Session.Manager σ)
    (hm : ∀ name (held : Session.Held H) st m, Session.MethodCall name held st m →
      manager st = none) :
    OwnerDiscipline σ H ∧ Session.SingleUse codec manager ∧
      ∀ (held : Session.Held H) (m : String),
        Wire.failureMembers (.fault (.consumed (held.opName m))) =
          [("error", .str "ConsumedHandleError"),
            ("message", .str (held.opName m ++ ": use of consumed unique handle")),
            ("panic", .bool true)] := by
  refine ⟨OwnerDiscipline.holds, ⟨?refuses, ?refuses_all, ?frees, ?releases, ?resizes, ?keeps,
    ?aborts⟩, Session.Held.consumed_members⟩
  case refuses =>
    intro b name held st m hslot hc hcall
    exact Session.Step.perform_of_consumed codec manager hslot hc hcall (hm _ _ _ _ hcall)
  case refuses_all =>
    intro b name held calls hslot hc hcalls
    exact Session.Step.runSteps_of_consumed codec manager hslot hc (hm name held) calls hcalls
  case frees =>
    intro b name held hslot hl
    have howner : held.IsOwner := by cases held <;> simp_all [Session.Held.Live, Session.Held.IsOwner]
    exact Session.Step.free_consumes codec manager hslot hl (hm _ _ _ _ (.dealloc held howner))
  case releases =>
    intro b name held toSlot hslot hl
    have hcall : ∃ m, Session.MethodCall name held (.handleInto name toSlot) m := by
      cases held with
      | unique u => exact ⟨_, .intoTyped u toSlot⟩
      | uslice u => exact ⟨_, .intoSlice u toSlot⟩
      | typed t => cases hl
      | slice s => cases hl
      | sliced s => cases hl
    obtain ⟨m, hcall⟩ := hcall
    exact Session.Step.convert_consumes codec manager hslot hl toSlot (hm _ _ _ _ hcall)
  case resizes =>
    intro b b' rep name fn u newLen r aborting toSlot n region parts hslot hl hlen hregion hform
      hrun
    exact Session.Step.resize_consumes codec manager hslot hl hlen hregion hform
      (hm _ _ _ _ (.resize u fn newLen r aborting toSlot n region parts hlen hregion hform)) hrun
  case keeps =>
    intro b b' e name fn u newLen r aborting toSlot n region parts hslot hl hlen hregion hform
      hrun
    exact Session.Step.resize_failure_keeps codec manager hslot hl hlen hregion hform
      (hm _ _ _ _ (.resize u fn newLen r aborting toSlot n region parts hlen hregion hform)) hrun
  case aborts =>
    intro b b' f name fn u newLen r toSlot n region parts hslot hl hlen hregion hform hrun hf
    exact Session.Step.resize_refused_aborts codec manager hslot hl hlen hregion hform
      (fun aborting => hm _ _ _ _ (.resize u fn newLen r aborting toSlot n region parts hlen
        hregion hform)) hrun hf

/-- The block storage's manager leaves every handle step to the handles, so its owners are
    single-use. -/
theorem block_owners_single_use :
    Session.SingleUse Session.blockCodec Session.blockManager :=
  (unique_handles_are_single_use Session.blockCodec Session.blockManager
    (fun _ _ _ _ hcall => by cases hcall <;> rfl)).2.1

end BlockArena
