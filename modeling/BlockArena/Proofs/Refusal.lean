import BlockArena.Proofs.Outcome
import BlockArena.Handle.Basic
import BlockArena.Storage.Address
import BlockArena.Storage.Block
import BlockArena.Storage.Inline

/-! # A refused request changes nothing

A storage hands a fault back to its caller only when it refuses a request for memory; every other
fault aborts. Each refusal is decided before anything changes (`Act.Firm`): an arena refuses an
allocation before it marks a block (`Arena.alloc_firm`) and reports no room to grow only from an
arena it left alone (`Arena.growInPlace_false`); a block storage refuses only in the allocation
that serves a request or a move (`BlockStore.allocate_firm`, `BlockStore.resize_firm`); an inline
storage in its fits checks; an allocation storage counts the request before it asks its
allocator, so its refusals change the epoch and nothing else (`AllocBacking.Firm`). The zeroed
forms clear bytes only after the request they wrap has answered, so they inherit the property
(`Act.resizeBy_firm`, `Act.allocateZeroed_firm`).
-/

set_option autoImplicit false

namespace BlockArena

/-! ## Faults of the occupancy table -/

namespace Arena

theorem tableByte_aborts {a : Arena} {i : Int64} {f : Fault} (h : a.tableByte i = .error f) :
    f.aborts = true := by
  unfold tableByte at h
  split at h
  · cases h
  · cases h
    rfl

theorem runFreeFrom_aborts (a : Arena) (i : Int64) (j : Fin 8) (count : Int) {f : Fault}
    (h : a.runFreeFrom i j count = .error f) : f.aborts = true := by
  fun_induction a.runFreeFrom i j count with
  | case1 => cases h
  | case2 i j count hc f' hbyte =>
    cases h
    exact tableByte_aborts hbyte
  | case3 => cases h
  | case4 i j count hc here byte hbyte hfree ih => exact ih h

theorem runFree_aborts (a : Arena) (first count : Int64) {f : Fault}
    (h : a.runFree first count = .error f) : f.aborts = true :=
  runFreeFrom_aborts a _ _ _ h

theorem markFrom_onlyAborts (i : Int64) (j : Fin 8) (count : Int) (used : Bool) :
    Act.OnlyAborts (markFrom i j count used) := by
  intro a f a' h
  fun_induction markFrom i j count used a with
  | case1 i j count a hc =>
    rw [EStateM.run, markFrom, dif_pos hc] at h
    cases h
  | case2 i j count a hc f' hbyte =>
    rw [EStateM.run, markFrom, dif_neg hc] at h
    simp only [hbyte] at h
    cases h
    exact tableByte_aborts hbyte
  | case3 i j count a hc here byte hbyte mask byte' ih =>
    rw [EStateM.run, markFrom, dif_neg hc] at h
    simp only [hbyte] at h
    exact ih h

theorem markRun_onlyAborts (first count : Int64) (used : Bool) :
    Act.OnlyAborts (markRun first count used) :=
  markFrom_onlyAborts _ _ _ _

/-! ## Requests to an arena -/

/-- An arena refuses an allocation before it marks a block or counts it. -/
theorem alloc_firm (l : Layout) : Act.Firm id (alloc l) := by
  unfold alloc
  split
  · exact .fail _
  · refine Act.Firm.get_bind fun a => ?_
    dsimp only
    split
    · exact .fail _
    · refine Act.Firm.bind_reads (.ofExcept _) (.ofExcept _) fun r => ?_
      cases r with
      | none => exact .fail _
      | some start =>
        exact .of_onlyAborts ((markRun_onlyAborts _ _ _).bind fun _ =>
          (Act.OnlyAborts.modify _).bind fun _ => .pure _)

theorem growInPlace_onlyAborts (off : Int64) (old new : Layout) :
    Act.OnlyAborts (growInPlace off old new) := by
  unfold growInPlace
  refine Act.OnlyAborts.get.bind fun a => ?_
  dsimp only
  split
  · exact .pure _
  · split
    · exact .pure _
    · refine (Act.OnlyAborts.ofExcept fun f h => runFree_aborts a _ _ h).bind fun free => ?_
      split
      · exact .pure _
      · exact (markRun_onlyAborts _ _ _).bind fun _ =>
          (Act.OnlyAborts.modify _).bind fun _ => .pure _

/-- Growing in place reports no room only from an arena it left as it was. -/
theorem growInPlace_false {off : Int64} {old new : Layout} {a a' : Arena} {n : Int64}
    (h : (growInPlace off old new).run a = .ok (n, false) a') : a' = a := by
  unfold growInPlace at h
  rw [Act.run_bind_ok (Act.run_get a)] at h
  dsimp only at h
  split at h
  · cases h
  · split at h
    · cases h
      rfl
    · obtain ⟨free, a₁, hfree, h⟩ := Act.run_bind_eq_ok h
      obtain rfl := Act.Reads.ofExcept _ _ _ _ hfree
      split at h
      · cases h
        rfl
      · -- a growth that goes ahead answers success
        obtain ⟨_, _, _, h⟩ := Act.run_bind_eq_ok h
        obtain ⟨_, _, _, h⟩ := Act.run_bind_eq_ok h
        cases h

theorem shrinkInPlace_onlyAborts (off : Int64) (old new : Layout) :
    Act.OnlyAborts (shrinkInPlace off old new) := by
  unfold shrinkInPlace
  refine Act.OnlyAborts.get.bind fun a => ?_
  dsimp only
  split
  · exact .pure _
  · exact (markRun_onlyAborts _ _ _).bind fun _ =>
      (Act.OnlyAborts.modify _).bind fun _ => .pure _

theorem dealloc_onlyAborts (off : Int64) (l : Layout) : Act.OnlyAborts (dealloc off l) := by
  unfold dealloc
  refine Act.OnlyAborts.get.bind fun a => ?_
  split
  · exact .fail rfl
  · exact (markRun_onlyAborts _ _ _).bind fun _ => .modify _

end Arena

/-! ## Faults of moves and clears -/

namespace Memory

theorem checkRun_aborts {p : Addr} {off : Int} {n : Int64} {f : Fault}
    (h : checkRun p off n = .error f) : f.aborts = true := by
  unfold checkRun at h
  split_ifs at h
  cases h
  rfl

theorem checkMapped_aborts {p : Addr} {n : Int64} {f : Fault} (h : checkMapped p n = .error f) :
    f.aborts = true := by
  unfold checkMapped at h
  split_ifs at h
  cases h
  rfl

theorem move_aborts {m : Space} {dst src : Addr} {dstOff srcOff : Int} {n : Int64} {f : Fault}
    (h : move m dst dstOff src srcOff n = .error f) : f.aborts = true := by
  unfold move at h
  cases h1 : checkRun dst dstOff n with
  | error f' =>
    simp only [h1, bind, Except.bind, Except.error.injEq] at h
    exact h ▸ checkRun_aborts h1
  | ok u =>
  cases h2 : checkRun src srcOff n with
  | error f' =>
    simp only [h1, h2, bind, Except.bind, Except.error.injEq] at h
    exact h ▸ checkRun_aborts h2
  | ok u =>
  cases h3 : checkMapped dst n with
  | error f' =>
    simp only [h1, h2, h3, bind, Except.bind, Except.error.injEq] at h
    exact h ▸ checkMapped_aborts h3
  | ok u =>
  cases h4 : checkMapped src n with
  | error f' =>
    simp only [h1, h2, h3, h4, bind, Except.bind, Except.error.injEq] at h
    exact h ▸ checkMapped_aborts h4
  | ok u => simp [h1, h2, h3, h4, bind, Except.bind, pure, Except.pure] at h

theorem clear_aborts {m : Space} {p : Addr} {lo hi : Int64} {f : Fault}
    (h : clear m p lo hi = .error f) : f.aborts = true := by
  unfold clear at h
  split at h
  · cases h
  · cases h1 : checkRun p lo.toInt (hi - lo) with
    | error f' =>
      simp only [h1, bind, Except.bind, Except.error.injEq] at h
      exact h ▸ checkRun_aborts h1
    | ok u =>
    cases h2 : checkMapped p (hi - lo) with
    | error f' =>
      simp only [h1, h2, bind, Except.bind, Except.error.injEq] at h
      exact h ▸ checkMapped_aborts h2
    | ok u => simp [h1, h2, bind, Except.bind, pure, Except.pure] at h

end Memory

/-! ## What every storage builds on its own requests -/

namespace Act

variable {σ H τ : Type} {π : σ → τ}

theorem zero_onlyAborts (memory : σ → Space) (setMemory : σ → Space → σ) (p : Addr)
    (lo hi : Int64) :
    OnlyAborts (do
      let m ← Act.ofExcept (Memory.clear (memory (← get)) p lo hi)
      modify fun s => setMemory s m : Act σ Unit) :=
  OnlyAborts.get.bind fun _ =>
    (OnlyAborts.ofExcept fun _ h => Memory.clear_aborts h).bind fun _ => .modify _

/-- A resize in a form refuses only as the plain resize it starts with: the clears that follow
    never refuse. -/
theorem resizeBy_firm {resolve : H → Act σ Addr} {memory : σ → Space}
    {setMemory : σ → Space → σ} {resize : Bool → H → Layout → Layout → Region → Act σ (H × Int64)}
    (hresize : ∀ grow h old new r, Firm π (resize grow h old new r))
    (hresolve : ∀ h, OnlyAborts (resolve h)) (form : ResizeForm) (h : H) (old new : Layout) :
    Firm π (resizeBy resolve memory setMemory resize form h old new) := by
  unfold resizeBy
  refine (hresize _ _ _ _ _).bind_onlyAborts fun ⟨h', n⟩ => ?_
  dsimp only
  split
  · refine (hresolve h').bind fun p => ?_
    split
    · exact (zero_onlyAborts _ _ _ _ _).bind fun _ => (zero_onlyAborts _ _ _ _ _).bind fun _ =>
        .pure _
    · exact (zero_onlyAborts _ _ _ _ _).bind fun _ => .pure _
  · exact .pure _

/-- Allocating zeroed refuses only as the allocation it starts with. -/
theorem allocateZeroed_firm [Storage σ H]
    (halloc : ∀ l, Firm π (Storage.allocate l : Act σ (H × Int64)))
    (hresolve : ∀ h, OnlyAborts (Storage.resolve h : Act σ Addr)) (l : Layout) :
    Firm π (Storage.allocateZeroed l : Act σ (H × Int64)) := by
  unfold Storage.allocateZeroed
  refine (halloc l).bind_onlyAborts fun ⟨h, n⟩ => ?_
  exact (hresolve h).bind fun p => (zero_onlyAborts _ _ _ _ _).bind fun _ => .pure _

end Act

/-! ## Block storage -/

namespace BlockStore

theorem lookup_firm (h : UInt64) : Act.Firm id (lookup h) := by
  unfold lookup
  refine Act.Firm.get_bind fun s => ?_
  split
  · exact .of_onlyAborts (.pure _)
  · exact .fail _

theorem lookup_reads (h : UInt64) : Act.Reads (lookup h) := by
  intro s e s' hrun
  unfold lookup at hrun
  rw [Act.run_bind_ok (Act.run_get s)] at hrun
  split at hrun
  · cases hrun
    rfl
  · cases hrun

theorem lookup_onlyAborts (h : UInt64) : Act.OnlyAborts (lookup h) := by
  unfold lookup
  refine Act.OnlyAborts.get.bind fun s => ?_
  split
  · exact .pure _
  · exact .fail rfl

theorem onArena_firm {α : Type} {act : Act Arena α} (h : Act.Firm id act) :
    Act.Firm id (onArena act) :=
  Act.Firm.focus h fun _ => rfl

theorem onArena_run_ok {α : Type} {act : Act Arena α} {s s' : BlockStore} {a : α}
    (h : (onArena act).run s = .ok a s') : ∃ t, act.run s.arena = .ok a t ∧ s' = { s with arena := t } := by
  rw [onArena, Act.run_focus] at h
  cases hact : act.run s.arena with
  | ok a' t =>
    rw [hact] at h
    cases h
    exact ⟨t, rfl, rfl⟩
  | error f t =>
    rw [hact] at h
    cases h

theorem moveRegion_onlyAborts (dst src : Int64) (r : Region) :
    Act.OnlyAborts (moveRegion dst src r) :=
  Act.OnlyAborts.get.bind fun _ =>
    (Act.OnlyAborts.ofExcept fun _ h => Memory.move_aborts h).bind fun _ => .set _

theorem moveRegion_run_eq {dst src : Int64} {r : Region} {s s' : BlockStore} {u : PUnit}
    (h : (moveRegion dst src r).run s = .ok u s') :
    ∃ m, Memory.move s.space (.offset dst.toInt) r.dst.toInt (.offset src.toInt) r.src.toInt
      r.size = .ok m ∧ s' = s.withSpace m := by
  unfold moveRegion at h
  rw [Act.run_bind_ok (Act.run_get s)] at h
  obtain ⟨m, s₁, hm, h⟩ := Act.run_bind_eq_ok h
  obtain ⟨hmove, rfl⟩ := Act.ofExcept_run_ok hm
  cases h
  exact ⟨m, hmove, rfl⟩

theorem resolve_onlyAborts (h : UInt64) : Act.OnlyAborts (resolve h) := by
  unfold resolve
  split
  · exact .pure _
  · exact (lookup_onlyAborts h).bind fun _ => .pure _

/-- A block storage refuses an allocation only where its arena does. -/
theorem allocate_firm (l : Layout) : Act.Firm id (allocate l) := by
  unfold allocate
  refine (onArena_firm (Arena.alloc_firm l)).bind_onlyAborts fun ⟨off, size⟩ => ?_
  exact Act.OnlyAborts.get.bind fun _ => (Act.OnlyAborts.modify _).bind fun _ =>
    (Act.OnlyAborts.modify _).bind fun _ => (Act.OnlyAborts.modify _).bind fun _ => .pure _

theorem relocating_firm (h : UInt64) (e : BlockEntry) (new : Layout) (r : Region) :
    Act.Firm id (do
      let (off, n) ← onArena (Arena.alloc new)
      moveRegion off e.offset r
      onArena (Arena.dealloc e.offset e.layout)
      put h ⟨off, new, n⟩
      bump
      pure (h, n) : Act BlockStore (UInt64 × Int64)) := by
  refine (onArena_firm (Arena.alloc_firm new)).bind_onlyAborts fun ⟨off, n⟩ => ?_
  exact (moveRegion_onlyAborts _ _ _).bind fun _ =>
    (Act.OnlyAborts.focus (Arena.dealloc_onlyAborts _ _)).bind fun _ =>
    (Act.OnlyAborts.modify _).bind fun _ => (Act.OnlyAborts.modify _).bind fun _ => .pure _

/-- A block storage refuses a resize only where the arena refuses the run that moves it: an
    attempt to grow in place that finds no room leaves the store as it was. -/
theorem resize_firm (grow : Bool) (h : UInt64) (old new : Layout) (r : Region) :
    Act.Firm id (resize grow h old new r) := by
  unfold resize
  refine (lookup_firm h).bind_reads (lookup_reads h) fun e => ?_
  refine Act.Firm.get_bind fun st => ?_
  dsimp only
  simp only [pure_bind]
  have placed : ∀ n : Int64, Act.OnlyAborts (do
      put h ⟨e.offset, new.withSize n, n⟩
      bump
      pure (h, n) : Act BlockStore (UInt64 × Int64)) := fun _ =>
    (Act.OnlyAborts.modify _).bind fun _ => (Act.OnlyAborts.modify _).bind fun _ => .pure _
  split
  · split
    · refine Act.Firm.bind (.of_onlyAborts (.focus (Arena.growInPlace_onlyAborts _ _ _)))
        fun s ⟨n, ok⟩ s' hgrow => ?_
      cases ok with
      | false =>
        obtain ⟨t, ht, rfl⟩ := onArena_run_ok hgrow
        exact .inl ⟨by rw [Arena.growInPlace_false ht], relocating_firm h e new r⟩
      | true => exact .inr ((moveRegion_onlyAborts _ _ _).bind fun _ => placed n)
    · exact .of_onlyAborts ((moveRegion_onlyAborts _ _ _).bind fun _ =>
        (Act.OnlyAborts.focus (Arena.shrinkInPlace_onlyAborts _ _ _)).bind fun n => placed n)
  · exact relocating_firm h e new r

end BlockStore

/-! ## Inline storage -/

namespace InlineStore

/-- An inline storage refuses an allocation in its checks, before it takes the buffer. -/
theorem allocate_firm (l : Layout) : Act.Firm id (allocate l) := by
  unfold allocate
  refine Act.Firm.get_bind fun s => ?_
  refine (Act.Firm.ofExcept _).bind_reads (.ofExcept _) fun _ => ?_
  split
  · exact .fail _
  · exact .of_onlyAborts ((Act.OnlyAborts.set _).bind fun _ => (Act.OnlyAborts.modify _).bind
      fun _ => .pure _)

theorem shift_onlyAborts (s : InlineStore) (r : Region) :
    Act.OnlyAborts (do
      if r.src != r.dst then
        set (s.withSpace (← Act.ofExcept (Memory.move s.space s.base r.dst.toInt s.base
          r.src.toInt r.size)))
      bump
      pure ((), s.capacityBytes) : Act InlineStore (Unit × Int64)) := by
  dsimp only
  split
  · exact (Act.OnlyAborts.ofExcept fun _ h => Memory.move_aborts h).bind fun _ =>
      (Act.OnlyAborts.set _).bind fun _ => (Act.OnlyAborts.modify _).bind fun _ => .pure _
  · exact (Act.OnlyAborts.modify _).bind fun _ => .pure _

/-- An inline storage refuses a resize in its fits check, before it shifts a byte. -/
theorem resize_firm (grow : Bool) (h : Unit) (old new : Layout) (r : Region) :
    Act.Firm id (resize grow h old new r) := by
  unfold resize
  refine Act.Firm.get_bind fun s => ?_
  dsimp only
  split
  · exact Act.Firm.bind_reads (.ofExcept _) (.ofExcept _) fun _ =>
      .of_onlyAborts (shift_onlyAborts s r)
  · exact .of_onlyAborts (shift_onlyAborts s r)

/-- An answered shift moved the kept region, or left memory alone for a region that stays where
    it is; either way it counted once and answers the whole buffer of the state it read. -/
theorem shift_run_cases {s s' : InlineStore} {r : Region} {a : Unit × Int64}
    (h : (do
      if r.src != r.dst then
        set (s.withSpace (← Act.ofExcept (Memory.move s.space s.base r.dst.toInt s.base
          r.src.toInt r.size)))
      bump
      pure ((), s.capacityBytes) : Act InlineStore (Unit × Int64)).run s = .ok a s') :
    a = ((), s.capacityBytes) ∧
      ((r.src ≠ r.dst ∧ ∃ m, Memory.move s.space s.base r.dst.toInt s.base r.src.toInt r.size =
          .ok m ∧ s' = { s.withSpace m with epoch := s.epoch + 1 }) ∨
        r.src = r.dst ∧ s' = { s with epoch := s.epoch + 1 }) := by
  dsimp only at h
  split at h
  · rename_i hne
    obtain ⟨m, s₁, hm, h⟩ := Act.run_bind_eq_ok h
    obtain ⟨hmove, rfl⟩ := Act.ofExcept_run_ok hm
    obtain ⟨_, s₂, hset, h⟩ := Act.run_bind_eq_ok h
    cases hset
    obtain ⟨_, s₃, hbump, h⟩ := Act.run_bind_eq_ok h
    cases hbump
    cases h
    exact ⟨rfl, .inl ⟨bne_iff_ne.1 hne, m, hmove, rfl⟩⟩
  · rename_i hsame
    obtain ⟨_, s₃, hbump, h⟩ := Act.run_bind_eq_ok h
    cases hbump
    cases h
    exact ⟨rfl, .inr ⟨by simpa only [bne_iff_ne, ne_eq, not_not] using hsame, rfl⟩⟩

/-- An answered resize passed the fit check if it grows, and then shifted the kept region of the
    state it read; every later proof about an inline resize starts here. -/
theorem resize_run_cases {grow : Bool} {h : Unit} {old new : Layout} {r : Region}
    {s s' : InlineStore} {a : Unit × Int64} (hrun : (resize grow h old new r).run s = .ok a s') :
    (grow = true → s.fits new = .ok ()) ∧ a = ((), s.capacityBytes) ∧
      ((r.src ≠ r.dst ∧ ∃ m, Memory.move s.space s.base r.dst.toInt s.base r.src.toInt r.size =
          .ok m ∧ s' = { s.withSpace m with epoch := s.epoch + 1 }) ∨
        r.src = r.dst ∧ s' = { s with epoch := s.epoch + 1 }) := by
  unfold resize at hrun
  rw [Act.run_bind_ok (Act.run_get s)] at hrun
  dsimp only at hrun
  split at hrun
  · obtain ⟨u, s₁, hfits, hrun⟩ := Act.run_bind_eq_ok hrun
    obtain ⟨hfits, rfl⟩ := Act.ofExcept_run_ok hfits
    exact ⟨fun _ => hfits, shift_run_cases hrun⟩
  · rename_i hg
    exact ⟨fun hg' => absurd hg' hg, shift_run_cases hrun⟩

end InlineStore

/-! ## Atomic storages -/

/-- A storage whose refusals change nothing `π` observes: every allocation and every resize
    form refuses only before it changes what `π` sees, and the calls that only look up a
    handle (its address, its recorded size) never refuse, the latter without changing
    anything. The handles built on such a storage inherit the property. -/
structure Storage.Atomic {σ H τ : Type} [Storage σ H] (π : σ → τ) : Prop where
  dangling : ∀ align, Act.Firm π (Storage.dangling align : Act σ H)
  allocate : ∀ l, Act.Firm π (Storage.allocate l : Act σ (H × Int64))
  resizeWith : ∀ form h old new, Act.Firm π (Storage.resizeWith form h old new : Act σ (H × Int64))
  resolve : ∀ h, Act.OnlyAborts (Storage.resolve h : Act σ Addr)
  sizeOf_onlyAborts : ∀ h : H, Act.OnlyAborts (Handle.sizeOf h : Act σ Int64)
  sizeOf_reads : ∀ h : H, Act.Reads (Handle.sizeOf h : Act σ Int64)

theorem Storage.Atomic.allocateZeroed {σ H τ : Type} [Storage σ H] {π : σ → τ}
    (hA : Storage.Atomic π) (l : Layout) :
    Act.Firm π (Storage.allocateZeroed l : Act σ (H × Int64)) :=
  Act.allocateZeroed_firm hA.allocate hA.resolve l

namespace BlockStore

theorem resolveSize_onlyAborts (h : UInt64) : Act.OnlyAborts (resolveSize h) := by
  unfold resolveSize
  split
  · exact .pure _
  · exact (lookup_onlyAborts h).bind fun _ => .pure _

theorem resolveSize_reads (h : UInt64) : Act.Reads (resolveSize h) := by
  intro s n s' hrun
  unfold resolveSize at hrun
  split at hrun
  · cases hrun
    rfl
  · obtain ⟨e, s₁, hlook, hrun⟩ := Act.run_bind_eq_ok hrun
    cases hrun
    exact lookup_reads h s e _ hlook

/-- A refusal of a block storage changes nothing at all: not the table of handles, not the
    arena's bitmap or counters, not the next handle, not a byte, not the epoch. -/
theorem atomic : Storage.Atomic (σ := BlockStore) id where
  dangling _ := Act.Firm.bind_reads (.ofExcept _) (.ofExcept _) fun _ => .of_onlyAborts (.pure _)
  allocate := allocate_firm
  resizeWith _ _ _ _ := Act.resizeBy_firm resize_firm resolve_onlyAborts _ _ _ _
  resolve := resolve_onlyAborts
  sizeOf_onlyAborts := resolveSize_onlyAborts
  sizeOf_reads := resolveSize_reads

end BlockStore

theorem InlineStore.atomic : Storage.Atomic (σ := InlineStore) id where
  dangling _ := .of_onlyAborts (.pure _)
  allocate := allocate_firm
  resizeWith _ _ _ _ := Act.resizeBy_firm resize_firm
    (fun _ => Act.OnlyAborts.get.bind fun _ => .pure _) _ _ _ _
  resolve _ := Act.OnlyAborts.get.bind fun _ => .pure _
  sizeOf_onlyAborts _ := Act.OnlyAborts.get.bind fun _ => .pure _
  sizeOf_reads _ := fun s n s' hrun => by
    cases hrun
    rfl

/-! ## Allocation storages -/

namespace AllocBacking

variable {σ τ : Type} (B : AllocBacking σ) {π : σ → τ}

/-- An allocator an allocation storage refuses atomically over: counting a change keeps what `π`
    observes and never refuses, serving a layout refuses only firmly, freeing never refuses. -/
structure Firm (π : σ → τ) : Prop where
  bump_keeps : ∀ s u s', B.bump.run s = .ok u s' → π s' = π s
  bump_onlyAborts : Act.OnlyAborts B.bump
  alloc : ∀ l, Act.Firm π (B.alloc l)
  dealloc : ∀ p l, Act.OnlyAborts (B.dealloc p l)

variable {B}

theorem Firm.deallocate (hB : B.Firm π) (p : Addr) (l : Layout) :
    Act.OnlyAborts (B.deallocate p l) :=
  hB.bump_onlyAborts.bind fun _ => hB.dealloc p l

theorem Firm.allocate (hB : B.Firm π) (l : Layout) : Act.Firm π (B.allocate l) :=
  Act.Firm.bind (.of_onlyAborts hB.bump_onlyAborts) fun s u s' hrun =>
    .inl ⟨hB.bump_keeps s u s' hrun, hB.alloc l⟩

/-- A resize refuses only where the allocation for the new layout does: the copy and the free
    after it only abort. -/
theorem Firm.resize (hB : B.Firm π) (grow : Bool) (p : Addr) (old new : Layout) (r : Region) :
    Act.Firm π (B.resize grow p old new r) := by
  unfold AllocBacking.resize
  refine (hB.allocate new).bind_onlyAborts fun ⟨p', n⟩ => ?_
  exact Act.OnlyAborts.get.bind fun _ =>
    (Act.OnlyAborts.ofExcept fun _ h => Memory.move_aborts h).bind fun _ =>
    (Act.OnlyAborts.set _).bind fun _ => (hB.deallocate _ _).bind fun _ => .pure _

theorem Firm.atomic (hB : B.Firm π) : @Storage.Atomic σ Addr τ B.storage π := by
  let := B.storage
  exact
    { dangling := fun _ => .ofExcept _
      allocate := hB.allocate
      resizeWith := fun _ _ _ _ => Act.resizeBy_firm hB.resize (fun _ => .pure _) _ _ _ _
      resolve := fun _ => .pure _
      sizeOf_onlyAborts := fun _ => .pure _
      sizeOf_reads := fun _ => .pure _ }

end AllocBacking

namespace AddressStore

/-- What an address storage keeps apart from its epoch: the arena and the bytes around it. -/
def Kept (s : AddressStore) : Arena × List (Int × ByteArray) := (s.arena, s.around)

theorem onArena_firm {α : Type} {act : Act Arena α} (h : Act.Firm id act) :
    Act.Firm Kept (onArena act) :=
  Act.Firm.of_id (Act.Firm.focus h fun _ => rfl)

theorem backing_firm : backing.Firm Kept where
  bump_keeps _ _ _ hrun := by
    cases hrun
    rfl
  bump_onlyAborts := .modify _
  alloc l := (onArena_firm (Arena.alloc_firm l)).bind_onlyAborts fun _ => .pure _
  dealloc
    | .offset _, _ => .focus (Arena.dealloc_onlyAborts _ _)
    | .null, _ => .fail rfl
    | .dangling, _ => .fail rfl

end AddressStore

/-- A refusal of an address storage changes nothing but its epoch: the arena, its bitmap and
    counters, and every byte stay as they were. -/
theorem AddressStore.atomic : Storage.Atomic (σ := AddressStore) AddressStore.Kept :=
  AddressStore.backing_firm.atomic

end BlockArena
