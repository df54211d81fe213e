import BlockArena.Proofs.Contents
import BlockArena.Session.Arena

/-! # Handing an arena's buffer back

An arena's buffer comes from an owner and goes back to it once.

* While allocations are live a release is refused and leaves the arena as it was
  (`Arena.release_of_live`). With none live, the first release marks the arena released and
  drops its table (`Arena.release_of_idle`), and every later one is refused
  (`Arena.release_of_released`).
* Every other step keeps the buffer, its layout and whether it went back (`Arena.SameBuffer`).
  For the block requests this follows from the walk of `Contents`: they only set table bytes and
  counters (`Arena.TableWrites`).
* So along every run of steps, the answers that hand the buffer back are exactly the times the
  arena went from held to released, and an owner's count of the buffers it got back follows the
  arena (`Session.ArenaRun.run_accounts`). From a held arena at most one step hands the buffer
  back, and it reports one buffer to an owner (`Session.ArenaRun.run_from_held`).
-/

set_option autoImplicit false

namespace BlockArena

namespace Arena

/-- The layout of the buffer the arena was given, which goes back with it. -/
def bufferLayout (a : Arena) : Layout := ⟨a.bufferSize, a.bufferAlign⟩

/-- `a'` holds the buffer of `a`, of the same layout, and is released exactly when `a` is. -/
structure SameBuffer (a a' : Arena) : Prop where
  released_eq : a'.released = a.released
  bufferLayout_eq : a'.bufferLayout = a.bufferLayout

instance : Std.Refl SameBuffer := ⟨fun _ => ⟨rfl, rfl⟩⟩

instance : IsTrans Arena SameBuffer :=
  ⟨fun _ _ _ h₁ h₂ => ⟨h₂.released_eq.trans h₁.released_eq,
    h₂.bufferLayout_eq.trans h₁.bufferLayout_eq⟩⟩

theorem sameBuffer_tableWrites : TableWrites SameBuffer :=
  ⟨fun _ _ _ _ => ⟨rfl, rfl⟩, fun _ _ _ => ⟨rfl, rfl⟩⟩

/-! ## Release -/

/-- A released arena refuses every release and changes nothing. -/
theorem release_of_released {a : Arena} (h : a.released = true) :
    release.run a = .error .alreadyReleased a := by
  rw [release, Act.run_bind_ok (Act.run_get a), if_pos h]
  rfl

/-- While allocations are live a release is refused, also before the arena's runs can be read,
    and changes nothing. -/
theorem release_of_live {a : Arena} (h : 0 < a.allocationCount) :
    ∃ f, release.run a = .error f a := by
  cases hr : a.released with
  | true => exact ⟨_, release_of_released hr⟩
  | false =>
    rw [release, Act.run_bind_ok (Act.run_get a), if_neg (by simp [hr]), if_pos h]
    cases hruns : a.runs with
    | ok rs => exact ⟨_, by rw [Act.run_bind_ok (Act.run_ofExcept_ok rs a)]; rfl⟩
    | error f => exact ⟨f, Act.run_bind_error (Act.run_ofExcept_error f a)⟩

/-- With no live allocation, the first release marks the arena released and drops its table. -/
theorem release_of_idle {a : Arena} (hr : a.released = false) (h : a.allocationCount ≤ 0) :
    release.run a = .ok () { a with released := true, tableLength := 0 } := by
  rw [release, Act.run_bind_ok (Act.run_get a), if_neg (by simp [hr]), if_neg (by simpa using h)]
  rfl

/-- A release that answers came from an arena not yet released with no live allocation, and
    leaves it released with no table. -/
theorem release_run_ok {a a' : Arena} {u : Unit} (h : release.run a = .ok u a') :
    a.released = false ∧ a.allocationCount ≤ 0 ∧
      a' = { a with released := true, tableLength := 0 } := by
  cases hr : a.released with
  | true => rw [release_of_released hr] at h; cases h
  | false =>
    by_cases hc : 0 < a.allocationCount
    · obtain ⟨f, hf⟩ := release_of_live hc
      rw [hf] at h
      cases h
    · rw [release_of_idle hr (by simpa using hc)] at h
      cases h
      exact ⟨rfl, by simpa using hc, rfl⟩

theorem release_run_error {a a' : Arena} {f : Fault} (h : release.run a = .error f a') :
    a' = a := by
  cases hr : a.released with
  | true => rw [release_of_released hr] at h; cases h; rfl
  | false =>
    by_cases hc : 0 < a.allocationCount
    · obtain ⟨f', hf⟩ := release_of_live hc
      rw [hf] at h
      cases h
      rfl
    · rw [release_of_idle hr (by simpa using hc)] at h
      cases h

end Arena

namespace Session

/-- The answer of a release that handed the buffer back. -/
def handsBack : Answer → Bool
  | .ok (.released _) => true
  | _ => false

theorem eq_released_of_handsBack {r : Answer} (h : handsBack r = true) :
    ∃ n, r = .ok (.released n) := by
  unfold handsBack at h
  split at h
  · exact ⟨_, rfl⟩
  · cases h

namespace ArenaRun

/-- The state a run of steps leaves. -/
def after (s : ArenaRun) : List ArenaStep → ArenaRun
  | [] => s
  | st :: rest => (s.step st).2.after rest

/-- The buffers the owner has got back by the arena's own account: one once the arena is
    released, and none for an arena whose buffer came from the heap. -/
def handedBack (s : ArenaRun) : Nat := if s.composable then 0 else s.arena.released.toNat

theorem act_snd {α : Type} (s : ArenaRun) (x : Act Arena α) (reply : α → Reply) :
    (s.act x reply).2 = { s with arena := x.leaves s.arena } := by
  unfold act Act.leaves
  cases x.run s.arena <;> rfl

theorem act_handsBack {α : Type} (s : ArenaRun) (x : Act Arena α) {reply : α → Reply}
    (hreply : ∀ a n, reply a ≠ .released n) : handsBack (s.act x reply).1 = false := by
  cases hb : handsBack (s.act x reply).1 with
  | false => rfl
  | true =>
    obtain ⟨n, hn⟩ := eq_released_of_handsBack hb
    unfold act at hn
    cases hx : x.run s.arena with
    | ok a t =>
      rw [hx] at hn
      exact absurd (Except.ok.inj hn) (hreply a n)
    | error f t =>
      rw [hx] at hn
      cases hn

theorem act_kept {α : Type} (s : ArenaRun) {x : Act Arena α} {reply : α → Reply}
    (hx : Act.Stays Arena.SameBuffer x) (hreply : ∀ a n, reply a ≠ .released n) :
    handsBack (s.act x reply).1 = false ∧
      ∃ a', (s.act x reply).2 = { s with arena := a' } ∧ s.arena.SameBuffer a' :=
  ⟨act_handsBack s x hreply, _, act_snd s x reply, hx s.arena⟩

theorem ofExcept_handsBack {α : Type} (r : Except Fault α) {reply : α → Reply}
    (hreply : ∀ a n, reply a ≠ .released n) : handsBack (ofExcept r reply) = false := by
  cases hb : handsBack (ofExcept r reply) with
  | false => rfl
  | true =>
    obtain ⟨n, hn⟩ := eq_released_of_handsBack hb
    cases r with
    | ok a => exact absurd (Except.ok.inj hn) (hreply a n)
    | error f => cases hn

/-- Every step but a release changes the arena only, keeps its buffer and whether it went back,
    and hands nothing back. -/
theorem step_of_ne_release (s : ArenaRun) {st : ArenaStep} (hst : st ≠ .release) :
    handsBack (s.step st).1 = false ∧
      ∃ a', (s.step st).2 = { s with arena := a' } ∧ s.arena.SameBuffer a' := by
  have hself : ∃ a', s = { s with arena := a' } ∧ s.arena.SameBuffer a' :=
    ⟨s.arena, rfl, Std.Refl.refl _⟩
  unfold step
  split
  · exact ⟨rfl, hself⟩
  cases st with
  | release => exact absurd rfl hst
  | alloc l =>
    dsimp only
    exact act_kept s (Arena.alloc_within Arena.sameBuffer_tableWrites l) fun _ _ => nofun
  | dealloc off l =>
    dsimp only
    split
    · exact ⟨rfl, hself⟩
    · exact act_kept s (Arena.dealloc_within Arena.sameBuffer_tableWrites _ _) fun _ _ => nofun
  | relocate off l =>
    dsimp only
    split
    · exact ⟨rfl, hself⟩
    · exact act_kept s (Arena.relocate_within Arena.sameBuffer_tableWrites _ _) fun _ _ => nofun
  | growInPlace off old new =>
    dsimp only
    split
    · exact ⟨rfl, hself⟩
    · exact act_kept s (Arena.growInPlace_within Arena.sameBuffer_tableWrites _ _ _)
        fun _ _ => nofun
  | shrinkInPlace off old new =>
    dsimp only
    split
    · exact ⟨rfl, hself⟩
    · exact act_kept s (Arena.shrinkInPlace_within Arena.sameBuffer_tableWrites _ _ _)
        fun _ _ => nofun
  | owns off l =>
    dsimp only
    split <;> exact ⟨rfl, hself⟩
  | detailedStats => exact ⟨ofExcept_handsBack _ fun _ _ => nofun, hself⟩
  | map => exact ⟨ofExcept_handsBack _ fun _ _ => nofun, hself⟩
  | collect space name => exact ⟨ofExcept_handsBack _ fun _ _ => nofun, hself⟩
  | setAllocId id => exact ⟨rfl, _, rfl, rfl, rfl⟩
  | read off len =>
    dsimp only
    split <;> exact ⟨rfl, hself⟩
  | write off data =>
    dsimp only
    split
    · exact ⟨rfl, hself⟩
    · split
      · exact ⟨rfl, hself⟩
      · exact ⟨rfl, _, rfl, rfl, rfl⟩
  | isEmpty | stats | allocId | blockSize | blockCount | unknown _ | misread _ _ =>
    exact ⟨rfl, hself⟩

theorem act_of_ok {α : Type} (s : ArenaRun) {x : Act Arena α} {a : α} {t : Arena}
    (h : x.run s.arena = .ok a t) (reply : α → Reply) :
    s.act x reply = (.ok (reply a), { s with arena := t }) := by
  unfold act
  rw [h]

theorem act_of_error {α : Type} (s : ArenaRun) {x : Act Arena α} {f : Fault} {t : Arena}
    (h : x.run s.arena = .error f t) (reply : α → Reply) :
    s.act x reply = (failWith f, { s with arena := t }) := by
  unfold act
  rw [h]

theorem step_release (s : ArenaRun) :
    s.step .release =
      let (r, s') := s.act Arena.release fun _ => .empty
      match r with
      | .ok _ =>
        let n := if s.composable then s'.parentDeallocs else s'.parentDeallocs + 1
        (.ok (.released n), { s' with parentDeallocs := n })
      | .error e => (.error e, s') := by
  unfold step
  exact if_neg (by simp [ArenaStep.composable])

/-- A released arena refuses every later release and changes nothing: its owner is not called
    again. -/
theorem step_release_of_released (s : ArenaRun) (h : s.arena.released = true) :
    s.step .release = (failWith .alreadyReleased, s) := by
  rw [step_release, act_of_error s (Arena.release_of_released h)]
  rfl

theorem step_release_of_live (s : ArenaRun) (h : 0 < s.arena.allocationCount) :
    ∃ e, s.step .release = (.error e, s) := by
  obtain ⟨f, hf⟩ := Arena.release_of_live h
  rw [step_release, act_of_error s hf]
  exact ⟨_, rfl⟩

/-- The first release of an arena with no live allocation hands the buffer back: the arena is
    released, and an owner counts one more buffer. -/
theorem step_release_of_idle (s : ArenaRun) (hr : s.arena.released = false)
    (h : s.arena.allocationCount ≤ 0) :
    let n := if s.composable then s.parentDeallocs else s.parentDeallocs + 1
    s.step .release = (.ok (.released n),
      { s with arena := { s.arena with released := true, tableLength := 0 }, parentDeallocs := n }) := by
  rw [step_release, act_of_ok s (Arena.release_of_idle hr h)]

/-- What one step does to the buffer and its owner's count: it hands the buffer back exactly when
    it releases the arena, keeps the buffer's layout, and the owner's count moves as the arena's
    own account of it does. -/
theorem step_accounts (s : ArenaRun) (st : ArenaStep) :
    (handsBack (s.step st).1).toNat + s.arena.released.toNat =
        (s.step st).2.arena.released.toNat ∧
      (s.step st).2.arena.bufferLayout = s.arena.bufferLayout ∧
      (s.step st).2.composable = s.composable ∧
      (s.step st).2.parentDeallocs + s.handedBack = s.parentDeallocs + (s.step st).2.handedBack := by
  by_cases hst : st = .release
  · subst hst
    cases hr : s.arena.released with
    | true =>
      rw [step_release_of_released s hr]
      exact ⟨by simp [handsBack, failWith, hr], rfl, rfl, rfl⟩
    | false =>
      by_cases hc : 0 < s.arena.allocationCount
      · obtain ⟨e, he⟩ := step_release_of_live s hc
        rw [he]
        exact ⟨by simp [handsBack, hr], rfl, rfl, rfl⟩
      · rw [step_release_of_idle s hr (by simpa using hc)]
        refine ⟨by simp [handsBack], rfl, rfl, ?_⟩
        cases hcomp : s.composable <;> simp [handedBack, hr, hcomp]
  · obtain ⟨hb, a', hs', hsame⟩ := step_of_ne_release s hst
    rw [hs', hb]
    refine ⟨by simp [hsame.released_eq], hsame.bufferLayout_eq, rfl, ?_⟩
    simp [handedBack, hsame.released_eq]

/-- The answer of a release that hands the buffer back, from a state whose owner has counted
    what the arena has handed back: the owner has then got exactly one buffer. -/
theorem step_handsBack_eq (s : ArenaRun) (st : ArenaStep)
    (hs : s.parentDeallocs = s.handedBack) (h : handsBack (s.step st).1 = true) :
    (s.step st).1 = .ok (.released (if s.composable then 0 else 1)) := by
  by_cases hst : st = .release
  · subst hst
    cases hr : s.arena.released with
    | true => rw [step_release_of_released s hr] at h; cases h
    | false =>
      by_cases hc : 0 < s.arena.allocationCount
      · obtain ⟨e, he⟩ := step_release_of_live s hc
        rw [he] at h
        cases h
      · have hzero : s.parentDeallocs = 0 := by simp [hs, handedBack, hr]
        rw [step_release_of_idle s hr (by simpa using hc), hzero]
  · rw [(step_of_ne_release s hst).1] at h
    cases h

@[simp] theorem steps_nil (s : ArenaRun) : s.steps [] = [] := rfl

@[simp] theorem steps_cons (s : ArenaRun) (st : ArenaStep) (rest : List ArenaStep) :
    s.steps (st :: rest) = (s.step st).1 :: (s.step st).2.steps rest := rfl

@[simp] theorem after_nil (s : ArenaRun) : s.after [] = s := rfl

@[simp] theorem after_cons (s : ArenaRun) (st : ArenaStep) (rest : List ArenaStep) :
    s.after (st :: rest) = (s.step st).2.after rest := rfl

/-- Along every run of steps: the answers that hand the buffer back are exactly the times the
    arena went from held to released, the buffer's layout never changes, and the owner's count
    moves as the arena's account of it does. -/
theorem run_accounts (sts : List ArenaStep) : ∀ s : ArenaRun,
    (s.steps sts).countP handsBack + s.arena.released.toNat = (s.after sts).arena.released.toNat ∧
      (s.after sts).arena.bufferLayout = s.arena.bufferLayout ∧
      (s.after sts).composable = s.composable ∧
      (s.after sts).parentDeallocs + s.handedBack = s.parentDeallocs + (s.after sts).handedBack := by
  induction sts with
  | nil => intro s; simp
  | cons st rest ih =>
    intro s
    obtain ⟨hb, hl, hc, hp⟩ := step_accounts s st
    obtain ⟨hb', hl', hc', hp'⟩ := ih (s.step st).2
    have hcount : (if handsBack (s.step st).1 = true then 1 else 0) =
        (handsBack (s.step st).1).toNat := by
      cases handsBack (s.step st).1 <;> rfl
    rw [steps_cons, after_cons, List.countP_cons, hcount]
    exact ⟨by omega, hl'.trans hl, hc'.trans hc, by omega⟩

/-- From a state whose owner has counted what the arena handed back, every answer of a run that
    hands the buffer back reports one buffer to an owner, and none for a heap arena. -/
theorem run_handsBack_eq (sts : List ArenaStep) : ∀ s : ArenaRun,
    s.parentDeallocs = s.handedBack → ∀ r ∈ s.steps sts, handsBack r = true →
      r = .ok (.released (if s.composable then 0 else 1)) := by
  induction sts with
  | nil => intro s _ r hr; cases hr
  | cons st rest ih =>
    intro s hs r hr hback
    rw [steps_cons, List.mem_cons] at hr
    obtain ⟨-, -, hc, hp⟩ := step_accounts s st
    rcases hr with rfl | hr
    · exact step_handsBack_eq s st hs hback
    · rw [← hc]
      exact ih (s.step st).2 (by omega) r hr hback

/-- Along every run of an arena that starts held, with an owner that has got nothing back: a
    step hands the buffer back once if the arena ends released and never otherwise; that step
    reports one buffer to an owner and none for a heap arena; the owner ends with one buffer back
    exactly when the arena is released; and the buffer's layout never changes. -/
theorem run_from_held (s : ArenaRun) (hr : s.arena.released = false) (hp : s.parentDeallocs = 0)
    (sts : List ArenaStep) :
    (s.steps sts).countP handsBack = (s.after sts).arena.released.toNat ∧
      (∀ r ∈ s.steps sts, handsBack r = true →
        r = .ok (.released (if s.composable then 0 else 1))) ∧
      (s.after sts).parentDeallocs = (s.after sts).handedBack ∧
      (s.after sts).arena.bufferLayout = s.arena.bufferLayout := by
  have hheld : s.handedBack = 0 := by simp [handedBack, hr]
  obtain ⟨hcount, hlayout, -, howner⟩ := run_accounts sts s
  rw [hr, Bool.toNat_false] at hcount
  exact ⟨by omega, run_handsBack_eq sts s (by omega), by omega, hlayout⟩

end ArenaRun

end Session

end BlockArena
