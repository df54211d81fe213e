import BlockArena.Proofs.Outcome
import BlockArena.Session.Bench

/-! # Calls on single owners

A method of a `Unique` or a `UniqueSlice` runs on the storage and the owner together
(`ownerCall`). On a consumed owner the owner's check refuses the call, naming the method, and
neither the storage nor the owner changes (`Unique.run_call_consumed`,
`UniqueSlice.run_call_consumed`, `UniqueSlice.run_resize_consumed`). On a live owner a call is
the method's own operation on the handle the owner holds, with the owner marked consumed first
where the method consumes (`Unique.run_call_live`, `UniqueSlice.run_call_live`); a resize
resizes the run and consumes the owner only once that answers (`UniqueSlice.run_resize_live`).

A session keeps owners in named slots and calls their methods through `Session.Step.onOwner`,
which writes the owner a call leaves over its slot, where it stands (`Session.Step.lookup_putSlot`);
an owner the call left alone leaves the slots as they were (`Session.Step.putSlot_of_lookup`).
-/

set_option autoImplicit false

namespace BlockArena

variable {σ O α : Type}

/-! ## A call on an owner -/

theorem run_onStorage (act : Act σ α) (s : σ) (o : O) :
    (onStorage act : Act (σ × O) α).run (s, o) = match act.run s with
      | .ok a t => .ok a (t, o)
      | .error f t => .error f (t, o) := rfl

section Call

variable {check : O → Except Fault Unit} {mark : O → O} {consumes : Bool} {act : O → Act σ α}
  {o : O}

theorem run_ownerCall_refused {f : Fault} (h : check o = .error f) (s : σ) :
    (ownerCall check mark consumes act).run (s, o) = .error f (s, o) := by
  unfold ownerCall
  rw [Act.run_bind_ok (Act.run_get (s, o))]
  exact Act.run_bind_error (by rw [h]; rfl)

/-- A call the owner's check lets through is the operation on the storage, with the owner
    marked first where the call consumes. -/
theorem run_ownerCall_ok (h : check o = .ok ()) (s : σ) :
    (ownerCall check mark consumes act).run (s, o) = match (act o).run s with
      | .ok a t => .ok a (t, if consumes then mark o else o)
      | .error f t => .error f (t, if consumes then mark o else o) := by
  unfold ownerCall
  rw [Act.run_bind_ok (Act.run_get (s, o)), Act.run_bind_ok (by rw [h]; rfl)]
  cases consumes
  · rfl
  · rfl

end Call

/-! ## The methods -/

namespace Unique

variable {H : Type} [Storage σ H] {u : Unique H}

theorem check_consumed (hc : u.consumed = true) (method : String) :
    u.check method = .error (.consumed (opName method)) := by
  simp [check, checkOwner, hc]

theorem check_live (hc : u.consumed = false) (method : String) : u.check method = .ok () := by
  simp [check, checkOwner, hc]

/-- On a consumed owner every method is refused, naming it, and changes nothing. -/
theorem run_call_consumed (m : Method H α) (s : σ) (hc : u.consumed = true) :
    (call m).run (s, u) = .error (.consumed (opName m.name)) (s, u) := by
  unfold call
  refine run_ownerCall_refused ?_ s
  exact check_consumed hc _

/-- On a live owner a method is the same method of the handle it owns; the owner after the call
    is consumed where the method consumes, whatever the storage answers. -/
theorem run_call_live (m : Method H α) (s : σ) (hc : u.consumed = false) :
    (call m).run (s, u) = match (m.onInner u.inner).run s with
      | .ok a t => .ok a (t, if m.consumes then { u with consumed := true } else u)
      | .error f t => .error f (t, if m.consumes then { u with consumed := true } else u) := by
  unfold call
  refine run_ownerCall_ok ?_ s
  exact check_live hc _

end Unique

namespace UniqueSlice

variable {H : Type} [Storage σ H] {u : UniqueSlice H}

theorem check_consumed (hc : u.consumed = true) (method : String) :
    u.check method = .error (.consumed (opName method)) := by
  simp [check, checkOwner, hc]

theorem check_live (hc : u.consumed = false) (method : String) : u.check method = .ok () := by
  simp [check, checkOwner, hc]

/-- On a consumed owner every method is refused, naming it, and changes nothing. -/
theorem run_call_consumed (m : Method H α) (s : σ) (hc : u.consumed = true) :
    (call m).run (s, u) = .error (.consumed (opName m.name)) (s, u) := by
  unfold call
  refine run_ownerCall_refused ?_ s
  exact check_consumed hc _

/-- On a live owner a method is the same method of the run it owns; the owner after the call is
    consumed where the method consumes, whatever the storage answers. -/
theorem run_call_live (m : Method H α) (s : σ) (hc : u.consumed = false) :
    (call m).run (s, u) = match (m.onInner u.inner).run s with
      | .ok a t => .ok a (t, if m.consumes then { u with consumed := true } else u)
      | .error f t => .error f (t, if m.consumes then { u with consumed := true } else u) := by
  unfold call
  refine run_ownerCall_ok ?_ s
  exact check_live hc _

variable (aborting : Bool) (newLen : Int64) (form : ResizeForm) (s : σ)

/-- A resize of a consumed owner is refused, naming its form, and changes nothing. -/
theorem run_resize_consumed (hc : u.consumed = true) :
    (resize aborting newLen form).run (s, u) =
      .error (.consumed (opName (resizeMethod aborting form))) (s, u) := by
  unfold resize
  rw [Act.run_bind_ok (Act.run_get (s, u))]
  exact Act.run_bind_error (by rw [check_consumed hc]; rfl)

/-- A resize of a live owner is the same resize of the run it owns. Where that answers, the
    owner is consumed and the answer is a fresh owner of the new run; where it fails, in either
    form, the owner is as it was. -/
theorem run_resize_live (hc : u.consumed = false) :
    (resize aborting newLen form).run (s, u) =
      match (Handle.formOf aborting (Handle.failureLayout u.inner.elem newLen)
          (u.inner.tryResize newLen form)).run s with
      | .ok r t => .ok ⟨r, false⟩ (t, { u with consumed := true })
      | .error f t => .error f (t, u) := by
  unfold resize
  rw [Act.run_bind_ok (Act.run_get (s, u)), Act.run_bind_ok (by rw [check_live hc]; rfl)]
  cases hx : (Handle.formOf aborting (Handle.failureLayout u.inner.elem newLen)
      (u.inner.tryResize newLen form)).run s with
  | ok r t =>
    rw [Act.run_bind_ok (by rw [run_onStorage, hx])]
    rfl
  | error f t => exact Act.run_bind_error (by rw [run_onStorage, hx])

end UniqueSlice

/-! ## Owners in slots -/

namespace Session

namespace Step

variable {H : Type}

/-- Writing the handle a slot already holds over it changes no slot. -/
theorem putSlot_of_lookup {slots : List (String × Held H)} {name : String} {h : Held H}
    (hl : slots.lookup name = some h) : putSlot name h slots = slots := by
  induction slots with
  | nil => cases hl
  | cons p rest ih =>
    obtain ⟨k, h'⟩ := p
    by_cases hk : name = k
    · subst hk
      simp only [List.lookup_cons, beq_self_eq_true, Option.some.injEq] at hl
      simp [putSlot, hl]
    · have hnk : (name == k) = false := beq_eq_false_iff_ne.mpr hk
      simp only [List.lookup_cons, hnk] at hl
      simp [putSlot, hnk, ih hl]

/-- A slot that holds a handle holds the one written over it; the others keep theirs. -/
theorem lookup_putSlot {slots : List (String × Held H)} {name : String} {h₀ : Held H}
    (hl : slots.lookup name = some h₀) (h : Held H) (k : String) :
    (putSlot name h slots).lookup k = if k = name then some h else slots.lookup k := by
  induction slots with
  | nil => cases hl
  | cons p rest ih =>
    obtain ⟨j, h'⟩ := p
    by_cases hj : name = j
    · subst hj
      by_cases hk : k = name
      · simp [putSlot, hk]
      · have hkn : (k == name) = false := beq_eq_false_iff_ne.mpr hk
        simp [putSlot, List.lookup_cons, hkn, hk]
    · have hnj : (name == j) = false := beq_eq_false_iff_ne.mpr hj
      simp only [List.lookup_cons, hnj] at hl
      by_cases hkj : k = j
      · subst hkj
        simp [putSlot, hnj, Ne.symm hj]
      · have hkj' : (k == j) = false := beq_eq_false_iff_ne.mpr hkj
        simp [putSlot, List.lookup_cons, hnj, hkj', ih hl]

theorem run_onOwner (name : String) (wrap : O → Held H) (o : O) (act : Act (σ × O) α)
    (b : Bench σ H) :
    (onOwner name wrap o act).run b = match act.run (b.store, o) with
      | .ok a p => .ok a { b with store := p.1, slots := putSlot name (wrap p.2) b.slots }
      | .error f p =>
        .error (.fault f) { b with store := p.1, slots := putSlot name (wrap p.2) b.slots } :=
  rfl

/-- A call that the owner in slot `name` refuses, with nothing changed, leaves the bench as it
    was. -/
theorem run_onOwner_refused {name : String} {wrap : O → Held H} {o : O} {act : Act (σ × O) α}
    {b : Bench σ H} {f : Fault} (hact : act.run (b.store, o) = .error f (b.store, o))
    (hslot : b.slots.lookup name = some (wrap o)) :
    (onOwner name wrap o act).run b = .error (.fault f) b := by
  rw [run_onOwner, hact]
  simp only [putSlot_of_lookup hslot]

end Step

end Session

end BlockArena
