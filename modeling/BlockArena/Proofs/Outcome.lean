import Mathlib
import BlockArena.Act

/-! # What an operation leaves, by how it ends

An operation on a state ends in one of three ways: it answers, it hands a fault back to its
caller (a refusal: a fault that does not abort), or it aborts. The contracts of the storages
speak of the first two: a refused request changes nothing, and every answer moves a counter by
a fixed amount. This module names those properties of operations and gives each the rules that
build it up along a `do` block, so that a proof about a storage composes the facts of the steps
it calls instead of unfolding the state monad:

* `Act.OnlyAborts x`: every fault of `x` aborts, so `x` never refuses;
* `Act.Firm π x`: when `x` refuses, the state it leaves agrees on `π` with the one it started
  from (with `π = id`, a refusal changes nothing);
* `Act.Reads x`: an answer of `x` leaves the state as it was;
* `Act.Counts c k x`: every answer of `x` moves the counter `c` on by `k`.

The rule of sequencing for `Firm` (`Act.Firm.bind`) is the one place where the outcome of the
first step matters: a refusal of the second step counts only when the first step answered
without changing the state.
-/

set_option autoImplicit false

namespace BlockArena

namespace Act

variable {σ τ α β : Type}

/-! ## Running a sequence -/

theorem run_bind_ok {ε : Type} {x : EStateM ε σ α} {g : α → EStateM ε σ β} {s s' : σ} {a : α}
    (h : x.run s = .ok a s') : (x >>= g).run s = (g a).run s' := by
  simp only [EStateM.run] at h ⊢
  show EStateM.bind x g s = _
  simp only [EStateM.bind, h]

theorem run_bind_error {ε : Type} {x : EStateM ε σ α} {g : α → EStateM ε σ β} {s s' : σ} {e : ε}
    (h : x.run s = .error e s') : (x >>= g).run s = .error e s' := by
  simp only [EStateM.run] at h ⊢
  show EStateM.bind x g s = _
  simp only [EStateM.bind, h]

theorem run_bind_eq_ok {ε : Type} {x : EStateM ε σ α} {g : α → EStateM ε σ β} {s s'' : σ} {b : β}
    (h : (x >>= g).run s = .ok b s'') : ∃ a s', x.run s = .ok a s' ∧ (g a).run s' = .ok b s'' := by
  cases hx : x.run s with
  | ok a s' => exact ⟨a, s', rfl, by rw [← run_bind_ok hx]; exact h⟩
  | error f s' =>
    rw [run_bind_error hx] at h
    cases h

theorem run_bind_eq_error {ε : Type} {x : EStateM ε σ α} {g : α → EStateM ε σ β} {s s'' : σ}
    {e : ε} (h : (x >>= g).run s = .error e s'') :
    x.run s = .error e s'' ∨ ∃ a s', x.run s = .ok a s' ∧ (g a).run s' = .error e s'' := by
  cases hx : x.run s with
  | ok a s' => exact .inr ⟨a, s', rfl, by rw [← run_bind_ok hx]; exact h⟩
  | error f s' =>
    rw [run_bind_error hx] at h
    cases h
    exact .inl rfl

@[simp] theorem run_pure {ε : Type} (a : α) (s : σ) : (pure a : EStateM ε σ α).run s = .ok a s :=
  rfl

@[simp] theorem run_get {ε : Type} (s : σ) : (get : EStateM ε σ σ).run s = .ok s s := rfl

@[simp] theorem run_set {ε : Type} (s t : σ) : (set t : EStateM ε σ PUnit).run s = .ok ⟨⟩ t := rfl

@[simp] theorem run_modify {ε : Type} (f : σ → σ) (s : σ) :
    (modify f : EStateM ε σ PUnit).run s = .ok ⟨⟩ (f s) := rfl

@[simp] theorem run_throw {ε : Type} (e : ε) (s : σ) : (throw e : EStateM ε σ α).run s = .error e s :=
  rfl

@[simp] theorem run_fail (f : Fault) (s : σ) : (Act.fail f : Act σ α).run s = .error f s := rfl

@[simp] theorem run_ofExcept_ok (a : α) (s : σ) : (ofExcept (.ok a) : Act σ α).run s = .ok a s :=
  rfl

@[simp] theorem run_ofExcept_error (f : Fault) (s : σ) :
    (ofExcept (.error f) : Act σ α).run s = .error f s := rfl

theorem ofExcept_run_ok {e : Except Fault α} {s s' : σ} {a : α}
    (h : (ofExcept e : Act σ α).run s = .ok a s') : e = .ok a ∧ s' = s := by
  cases e with
  | ok b =>
    rw [run_ofExcept_ok] at h
    cases h
    exact ⟨rfl, rfl⟩
  | error f =>
    rw [run_ofExcept_error] at h
    cases h

theorem run_focus {get : σ → τ} {put : σ → τ → σ} (act : Act τ α) (s : σ) :
    (focus get put act).run s = match act.run (get s) with
      | .ok a t => .ok a (put s t)
      | .error f t => .error f (put s t) := rfl

/-! ## Operations that never refuse -/

/-- Every fault `x` raises aborts: it never hands a fault back to its caller. -/
def OnlyAborts (x : Act σ α) : Prop :=
  ∀ s f s', x.run s = .error f s' → f.aborts = true

theorem OnlyAborts.of_ok {x : Act σ α} (h : ∀ s, ∃ a s', x.run s = .ok a s') : OnlyAborts x := by
  intro s f s' hrun
  obtain ⟨a, s'', hok⟩ := h s
  rw [hok] at hrun
  cases hrun

theorem OnlyAborts.pure (a : α) : OnlyAborts (Pure.pure a : Act σ α) :=
  .of_ok fun s => ⟨a, s, rfl⟩

theorem OnlyAborts.get : OnlyAborts (get : Act σ σ) :=
  .of_ok fun s => ⟨s, s, rfl⟩

theorem OnlyAborts.set (t : σ) : OnlyAborts (set t : Act σ PUnit) :=
  .of_ok fun _ => ⟨⟨⟩, t, rfl⟩

theorem OnlyAborts.modify (f : σ → σ) : OnlyAborts (modify f : Act σ PUnit) :=
  .of_ok fun s => ⟨⟨⟩, f s, rfl⟩

theorem OnlyAborts.fail {f : Fault} (h : f.aborts = true) : OnlyAborts (Act.fail f : Act σ α) := by
  intro s f' s' hrun
  cases hrun
  exact h

theorem OnlyAborts.ofExcept {e : Except Fault α} (h : ∀ f, e = .error f → f.aborts = true) :
    OnlyAborts (Act.ofExcept e : Act σ α) := by
  intro s f s' hrun
  cases e with
  | ok a => cases hrun
  | error f' =>
    cases hrun
    exact h f rfl

theorem OnlyAborts.bind {x : Act σ α} {g : α → Act σ β} (hx : OnlyAborts x)
    (hg : ∀ a, OnlyAborts (g a)) : OnlyAborts (x >>= g) := by
  intro s f s' hrun
  cases hxs : x.run s with
  | ok a s₁ => exact hg a s₁ f s' (by rw [← run_bind_ok hxs]; exact hrun)
  | error f' s₁ =>
    rw [run_bind_error hxs] at hrun
    cases hrun
    exact hx _ _ _ hxs

theorem OnlyAborts.focus {get : σ → τ} {put : σ → τ → σ} {act : Act τ α} (h : OnlyAborts act) :
    OnlyAborts (focus get put act) := by
  intro s f s' hrun
  rw [run_focus] at hrun
  cases hact : act.run (get s) with
  | ok a t =>
    rw [hact] at hrun
    cases hrun
  | error f' t =>
    rw [hact] at hrun
    cases hrun
    exact h _ _ _ hact

/-! ## Refusals that change nothing -/

/-- Whenever `x` hands a fault back to its caller, the state it leaves agrees on `π` with the
    state it started from. -/
def Firm (π : σ → τ) (x : Act σ α) : Prop :=
  ∀ s f s', x.run s = .error f s' → f.aborts = false → π s' = π s

/-- Every answer of `x` leaves the state it started from. -/
def Reads (x : Act σ α) : Prop := ∀ s a s', x.run s = .ok a s' → s' = s

variable {π : σ → τ}

theorem Firm.of_onlyAborts {x : Act σ α} (h : OnlyAborts x) : Firm π x := by
  intro s f s' hrun hf
  rw [h s f s' hrun] at hf
  cases hf

theorem Firm.of_id {x : Act σ α} (h : Firm id x) : Firm π x := by
  intro s f s' hrun hf
  rw [show s' = s from h s f s' hrun hf]

theorem Firm.fail (f : Fault) : Firm π (Act.fail f : Act σ α) := by
  intro s f' s' hrun _
  cases hrun
  rfl

theorem Firm.ofExcept (e : Except Fault α) : Firm π (Act.ofExcept e : Act σ α) := by
  intro s f s' hrun _
  cases e with
  | ok a => cases hrun
  | error f' =>
    cases hrun
    rfl

theorem Reads.pure (a : α) : Reads (Pure.pure a : Act σ α) := by
  intro s a' s' hrun
  cases hrun
  rfl

theorem Reads.get : Reads (get : Act σ σ) := by
  intro s a s' hrun
  cases hrun
  rfl

theorem Reads.ofExcept (e : Except Fault α) : Reads (Act.ofExcept e : Act σ α) := by
  intro s a s' hrun
  cases e with
  | ok a' =>
    cases hrun
    rfl
  | error f => cases hrun

/-- The rule of sequencing: a refusal of `x` is firm by `hx`; a refusal of `g a` counts only
    after an answer of `x` that left the state agreeing on `π`, and every other `g a` never
    refuses. -/
theorem Firm.bind {x : Act σ α} {g : α → Act σ β} (hx : Firm π x)
    (hg : ∀ s a s', x.run s = .ok a s' → (π s' = π s ∧ Firm π (g a)) ∨ OnlyAborts (g a)) :
    Firm π (x >>= g) := by
  intro s f s'' hrun hf
  cases hxs : x.run s with
  | ok a s' =>
    rw [run_bind_ok hxs] at hrun
    rcases hg s a s' hxs with ⟨hπ, hga⟩ | hga
    · rw [hga s' f s'' hrun hf, hπ]
    · rw [hga s' f s'' hrun] at hf
      cases hf
  | error f' s' =>
    rw [run_bind_error hxs] at hrun
    cases hrun
    exact hx s f s'' hxs hf

theorem Firm.bind_onlyAborts {x : Act σ α} {g : α → Act σ β} (hx : Firm π x)
    (hg : ∀ a, OnlyAborts (g a)) : Firm π (x >>= g) :=
  hx.bind fun _ a _ _ => .inr (hg a)

theorem Firm.bind_reads {x : Act σ α} {g : α → Act σ β} (hx : Firm π x) (hr : Reads x)
    (hg : ∀ a, Firm π (g a)) : Firm π (x >>= g) :=
  hx.bind fun s a s' hrun => .inl ⟨by rw [hr s a s' hrun], hg a⟩

theorem Firm.get_bind {g : σ → Act σ β} (hg : ∀ s, Firm π (g s)) :
    Firm π ((get : Act σ σ) >>= g) :=
  Firm.bind_reads (.of_onlyAborts .get) .get hg

/-- A firm operation on a part of the state is firm on the whole, when writing back the part
    that was read changes nothing. -/
theorem Firm.focus {get : σ → τ} {put : σ → τ → σ} {act : Act τ α} (h : Firm id act)
    (hput : ∀ s, put s (get s) = s) : Firm id (focus get put act) := by
  intro s f s' hrun hf
  rw [run_focus] at hrun
  cases hact : act.run (get s) with
  | ok a t =>
    rw [hact] at hrun
    cases hrun
  | error f' t =>
    rw [hact] at hrun
    cases hrun
    have ht : t = get s := h _ _ _ hact hf
    rw [ht]
    exact hput s

/-! ## Operations that change nothing -/

/-- `x` leaves the state as it found it, whether it answers or fails. -/
def Inert (x : Act σ α) : Prop := Reads x ∧ ∀ s f s', x.run s = .error f s' → s' = s

theorem Inert.pure (a : α) : Inert (Pure.pure a : Act σ α) :=
  ⟨.pure a, fun _ _ _ hrun => by cases hrun⟩

theorem Inert.get : Inert (get : Act σ σ) :=
  ⟨.get, fun _ _ _ hrun => by cases hrun⟩

theorem Inert.ofExcept (e : Except Fault α) : Inert (Act.ofExcept e : Act σ α) := by
  refine ⟨.ofExcept e, fun s f s' hrun => ?_⟩
  cases e with
  | ok a => cases hrun
  | error f' =>
    cases hrun
    rfl

theorem Inert.fail (f : Fault) : Inert (Act.fail f : Act σ α) := by
  refine ⟨fun s a s' hrun => ?_, fun s f' s' hrun => ?_⟩
  · cases hrun
  · cases hrun
    rfl

theorem Inert.bind {x : Act σ α} {g : α → Act σ β} (hx : Inert x) (hg : ∀ a, Inert (g a)) :
    Inert (x >>= g) := by
  refine ⟨fun s b s'' hrun => ?_, fun s f s'' hrun => ?_⟩
  · obtain ⟨a, s', hxs, hgs⟩ := run_bind_eq_ok hrun
    rw [(hg a).1 s' b s'' hgs, hx.1 s a s' hxs]
  · rcases run_bind_eq_error hrun with hxs | ⟨a, s', hxs, hgs⟩
    · exact hx.2 s f s'' hxs
    · rw [(hg a).2 s' f s'' hgs, hx.1 s a s' hxs]

theorem Inert.firm {x : Act σ α} (h : Inert x) : Firm π x := by
  intro s f s' hrun _
  rw [h.2 s f s' hrun]

/-! ## Counting answers -/

/-- Every answer of `x` moves the counter `c` on by `k`. -/
def Counts (c : σ → UInt64) (k : UInt64) (x : Act σ α) : Prop :=
  ∀ s a s', x.run s = .ok a s' → c s' = c s + k

variable {c : σ → UInt64}

theorem Counts.pure (a : α) : Counts c 0 (Pure.pure a : Act σ α) := by
  intro s a' s' hrun
  cases hrun
  simp

theorem Counts.of_reads {x : Act σ α} (h : Reads x) : Counts c 0 x := by
  intro s a s' hrun
  rw [h s a s' hrun]
  simp

theorem Counts.bind {x : Act σ α} {g : α → Act σ β} {k m : UInt64} (hx : Counts c k x)
    (hg : ∀ a, Counts c m (g a)) : Counts c (k + m) (x >>= g) := by
  intro s b s'' hrun
  cases hxs : x.run s with
  | ok a s' =>
    rw [run_bind_ok hxs] at hrun
    rw [hg a s' b s'' hrun, hx s a s' hxs, UInt64.add_assoc]
  | error f s' =>
    rw [run_bind_error hxs] at hrun
    cases hrun

theorem Counts.bind_zero {x : Act σ α} {g : α → Act σ β} {k : UInt64} (hx : Counts c k x)
    (hg : ∀ a, Counts c 0 (g a)) : Counts c k (x >>= g) := by
  simpa using hx.bind hg

theorem Counts.zero_bind {x : Act σ α} {g : α → Act σ β} {k : UInt64} (hx : Counts c 0 x)
    (hg : ∀ a, Counts c k (g a)) : Counts c k (x >>= g) := by
  simpa using hx.bind hg

theorem Counts.modify {f : σ → σ} {k : UInt64} (h : ∀ s, c (f s) = c s + k) :
    Counts c k (modify f : Act σ PUnit) := by
  intro s a s' hrun
  cases hrun
  exact h s

theorem Counts.focus {get : σ → τ} {put : σ → τ → σ} {act : Act τ α}
    (hput : ∀ s t, c (put s t) = c s) : Counts c 0 (focus get put act) := by
  intro s a s' hrun
  rw [run_focus] at hrun
  cases hact : act.run (get s) with
  | ok a' t =>
    rw [hact] at hrun
    cases hrun
    simp [hput]
  | error f t =>
    rw [hact] at hrun
    cases hrun

theorem Counts.ofExcept (e : Except Fault α) : Counts c 0 (Act.ofExcept e : Act σ α) :=
  .of_reads (.ofExcept e)

theorem Counts.fail (f : Fault) (k : UInt64) : Counts c k (Act.fail f : Act σ α) := by
  intro s a s' hrun
  cases hrun

end Act

end BlockArena
