import BlockArena.Proofs.RefusedResize
import BlockArena.Proofs.Store.Calls

/-! # Epochs count the changes

A storage's epoch is the counter a reference is checked against: a reference taken in one
epoch can be read back only while the storage is still in it. This module shows that the
counter moves as it must; `References` shows what that buys a reference.

* A block storage and an inline storage count every answered allocation, free, resize in any
  of its forms and compaction exactly once (`Act.Counts`), a refused one changes nothing
  (`Storage.Atomic`, from `Refusal`), and the calls that only read (the dangling handle, an
  address, a recorded size) change nothing at all (`Act.Inert`). `Storage.Counted` bundles
  these facts.
* An address storage counts a request before it asks its arena, so every allocation and free
  moves the epoch on by one whatever its outcome, and a resize, which allocates and frees, by
  one or two.
* A storage that remembers sizes over a storage of either kind is of the same kind.
-/

set_option autoImplicit false

namespace BlockArena

/-! ## Counting on every storage -/

namespace Act

variable {σ H : Type} {c : σ → UInt64}

theorem zero_counts (memory : σ → Space) (setMemory : σ → Space → σ)
    (hmem : ∀ s m, c (setMemory s m) = c s) (p : Addr) (lo hi : Int64) :
    Counts c 0 (do
      let m ← Act.ofExcept (Memory.clear (memory (← get)) p lo hi)
      modify fun s => setMemory s m : Act σ Unit) :=
  (Counts.of_reads .get).zero_bind fun _ => (Counts.ofExcept _).zero_bind fun _ =>
    .modify fun s => by rw [hmem, UInt64.add_zero]

theorem resizeBy_counts {resolve : H → Act σ Addr} {memory : σ → Space}
    {setMemory : σ → Space → σ} {resize : Bool → H → Layout → Layout → Region → Act σ (H × Int64)}
    {k : UInt64} (hresize : ∀ grow h old new r, Counts c k (resize grow h old new r))
    (hresolve : ∀ h, Counts c 0 (resolve h)) (hmem : ∀ s m, c (setMemory s m) = c s)
    (form : ResizeForm) (h : H) (old new : Layout) :
    Counts c k (resizeBy resolve memory setMemory resize form h old new) := by
  unfold resizeBy
  refine (hresize _ _ _ _ _).bind_zero fun ⟨h', n⟩ => ?_
  dsimp only
  split
  · refine (hresolve h').zero_bind fun p => ?_
    split
    · exact (zero_counts _ _ hmem _ _ _).zero_bind fun _ =>
        (zero_counts _ _ hmem _ _ _).zero_bind fun _ => .pure _
    · exact (zero_counts _ _ hmem _ _ _).zero_bind fun _ => .pure _
  · exact .pure _

end Act

/-- A storage whose epoch counts its changes: every answered allocation, free and resize in
    any form moves the epoch on by exactly one, writing memory does not move it, and the calls
    that only look a handle up change nothing. -/
structure Storage.Counted (σ : Type) {H : Type} [Storage σ H] : Prop where
  allocate : ∀ l, Act.Counts Storage.epoch 1 (Storage.allocate l : Act σ (H × Int64))
  deallocate : ∀ (h : H) l, Act.Counts Storage.epoch 1 (Storage.deallocate h l : Act σ Unit)
  resizeWith : ∀ form (h : H) old new,
    Act.Counts Storage.epoch 1 (Storage.resizeWith form h old new : Act σ (H × Int64))
  setMemory : ∀ (s : σ) m, Storage.epoch (Storage.setMemory (H := H) s m) = Storage.epoch (H := H) s
  dangling : ∀ align, Act.Inert (Storage.dangling align : Act σ H)
  resolve : ∀ h : H, Act.Inert (Storage.resolve h : Act σ Addr)
  sizeOf : ∀ h : H, Act.Inert (Handle.sizeOf h : Act σ Int64)

theorem Storage.Counted.allocateZeroed {σ H : Type} [Storage σ H] (hc : Storage.Counted σ)
    (l : Layout) : Act.Counts Storage.epoch 1 (Storage.allocateZeroed l : Act σ (H × Int64)) := by
  unfold Storage.allocateZeroed
  refine (hc.allocate l).bind_zero fun ⟨h, n⟩ => ?_
  exact (Act.Counts.of_reads (hc.resolve h).1).zero_bind fun p =>
    (Act.zero_counts _ _ hc.setMemory _ _ _).zero_bind fun _ => .pure _

/-! ## Block storage -/

namespace BlockStore

theorem onArena_counts {α : Type} (act : Act Arena α) : Act.Counts epoch 0 (onArena act) :=
  Act.Counts.focus fun _ _ => rfl

theorem put_counts (h : UInt64) (e : BlockEntry) : Act.Counts epoch 0 (put h e) :=
  .modify fun _ => (UInt64.add_zero _).symm

theorem bump_counts : Act.Counts epoch 1 bump :=
  .modify fun _ => rfl

theorem moveRegion_counts (dst src : Int64) (r : Region) :
    Act.Counts epoch 0 (moveRegion dst src r) := by
  intro s u s' hrun
  obtain ⟨m, -, rfl⟩ := moveRegion_run_eq hrun
  exact (UInt64.add_zero _).symm

theorem lookup_inert (h : UInt64) : Act.Inert (lookup h) := by
  refine ⟨lookup_reads h, fun s f s' hrun => ?_⟩
  unfold lookup at hrun
  rw [Act.run_bind_ok (Act.run_get s)] at hrun
  split at hrun
  · cases hrun
  · cases hrun
    rfl

theorem resolve_inert (h : UInt64) : Act.Inert (resolve h) := by
  unfold resolve
  split
  · exact .pure _
  · exact (lookup_inert h).bind fun _ => .pure _

theorem resolveSize_inert (h : UInt64) : Act.Inert (resolveSize h) := by
  unfold resolveSize
  split
  · exact .pure _
  · exact (lookup_inert h).bind fun _ => .pure _

theorem allocate_counts (l : Layout) : Act.Counts epoch 1 (allocate l) := by
  unfold allocate
  refine (onArena_counts _).zero_bind fun ⟨off, size⟩ => ?_
  exact (Act.Counts.of_reads .get).zero_bind fun _ =>
    (Act.Counts.modify fun _ => by simp).zero_bind fun _ =>
    (put_counts _ _).zero_bind fun _ => bump_counts.bind_zero fun _ => .pure _

theorem deallocate_counts (h : UInt64) (l : Layout) : Act.Counts epoch 1 (deallocate h l) := by
  unfold deallocate
  exact (Act.Counts.of_reads (lookup_reads h)).zero_bind fun _ => (onArena_counts _).zero_bind
    fun _ => (Act.Counts.modify fun _ => by simp).zero_bind fun _ => bump_counts

theorem relocating_counts (h : UInt64) (e : BlockEntry) (new : Layout) (r : Region) :
    Act.Counts epoch 1 (do
      let (off, n) ← onArena (Arena.alloc new)
      moveRegion off e.offset r
      onArena (Arena.dealloc e.offset e.layout)
      put h ⟨off, new, n⟩
      bump
      pure (h, n) : Act BlockStore (UInt64 × Int64)) := by
  refine (onArena_counts _).zero_bind fun ⟨off, n⟩ => ?_
  exact (moveRegion_counts _ _ _).zero_bind fun _ => (onArena_counts _).zero_bind fun _ =>
    (put_counts _ _).zero_bind fun _ => bump_counts.bind_zero fun _ => .pure _

theorem resize_counts (grow : Bool) (h : UInt64) (old new : Layout) (r : Region) :
    Act.Counts epoch 1 (resize grow h old new r) := by
  unfold resize
  refine (Act.Counts.of_reads (lookup_reads h)).zero_bind fun e => ?_
  refine (Act.Counts.of_reads .get).zero_bind fun st => ?_
  dsimp only
  simp only [pure_bind]
  have placed : ∀ n : Int64, Act.Counts epoch 1 (do
      put h ⟨e.offset, new.withSize n, n⟩
      bump
      pure (h, n) : Act BlockStore (UInt64 × Int64)) := fun _ =>
    (put_counts _ _).zero_bind fun _ => bump_counts.bind_zero fun _ => .pure _
  split
  · split
    · refine (onArena_counts _).zero_bind fun ⟨n, ok⟩ => ?_
      cases ok with
      | false => exact relocating_counts h e new r
      | true => exact (moveRegion_counts _ _ _).zero_bind fun _ => placed n
    · exact (moveRegion_counts _ _ _).zero_bind fun _ => (onArena_counts _).zero_bind placed
  · exact relocating_counts h e new r

theorem compactOne_counts (c : Compaction) (he : UInt64 × BlockEntry) :
    Act.Counts epoch 0 (compactOne c he) := by
  intro s c' s' hrun
  obtain ⟨h, e⟩ := he
  -- an answer changes the arena, the bytes and the entries, never the epoch
  rcases compactOne_cases c h e s with hok | ⟨f, a, -, -, herr⟩ |
      ⟨off, size, a, -, -, ⟨f, -, herr⟩ | ⟨m, -, hok⟩⟩
  · rw [hok] at hrun
    cases hrun
    exact (UInt64.add_zero _).symm
  · rw [herr] at hrun
    cases hrun
  · rw [herr] at hrun
    cases hrun
  · rw [hok] at hrun
    cases hrun
    exact (UInt64.add_zero _).symm

theorem foldCompact_counts : ∀ (todo : List (UInt64 × BlockEntry)) (c : Compaction),
    Act.Counts epoch 0 (todo.foldlM compactOne c)
  | [], _ => .pure _
  | he :: todo, c => by
    rw [List.foldlM_cons]
    exact (compactOne_counts c he).zero_bind fun c' => foldCompact_counts todo c'

theorem compact_counts : Act.Counts epoch 1 compact := by
  unfold compact
  exact (Act.Counts.of_reads .get).zero_bind fun s => (foldCompact_counts _ _).zero_bind fun _ =>
    bump_counts.bind_zero fun _ => .pure _

@[simp] theorem epoch_withSpace (s : BlockStore) (m : Space) : (s.withSpace m).epoch = s.epoch :=
  rfl

theorem counted : Storage.Counted BlockStore where
  allocate := allocate_counts
  deallocate := deallocate_counts
  resizeWith _ _ _ _ :=
    Act.resizeBy_counts resize_counts (fun h => .of_reads (resolve_inert h).1) epoch_withSpace
      _ _ _ _
  setMemory := epoch_withSpace
  dangling _ := (Act.Inert.ofExcept _).bind fun _ => .pure _
  resolve := resolve_inert
  sizeOf := resolveSize_inert

end BlockStore

/-! ## Inline storage -/

namespace InlineStore

@[simp] theorem epoch_withSpace (s : InlineStore) (m : Space) : (s.withSpace m).epoch = s.epoch :=
  rfl

theorem bump_counts : Act.Counts epoch 1 bump :=
  .modify fun _ => rfl

theorem allocate_counts (l : Layout) : Act.Counts epoch 1 (allocate l) := by
  intro s r s' hrun
  unfold allocate at hrun
  rw [Act.run_bind_ok (Act.run_get s)] at hrun
  obtain ⟨u, s₁, hfits, hrun⟩ := Act.run_bind_eq_ok hrun
  obtain rfl := Act.Reads.ofExcept _ _ _ _ hfits
  split at hrun
  · cases hrun
  · -- the buffer is taken from the state just read, so only the count moves the epoch
    obtain ⟨_, s₂, hset, hrun⟩ := Act.run_bind_eq_ok hrun
    cases hset
    obtain ⟨_, s₃, hbump, hrun⟩ := Act.run_bind_eq_ok hrun
    cases hbump
    cases hrun
    rfl

theorem deallocate_counts (h : Unit) (l : Layout) : Act.Counts epoch 1 (deallocate h l) := by
  unfold deallocate
  exact (Act.Counts.modify fun _ => by simp).zero_bind fun _ => bump_counts

theorem resize_counts (grow : Bool) (h : Unit) (old new : Layout) (r : Region) :
    Act.Counts epoch 1 (resize grow h old new r) := by
  intro s a s' hrun
  obtain ⟨-, -, ⟨-, m, -, rfl⟩ | ⟨-, rfl⟩⟩ := resize_run_cases hrun <;> rfl

theorem base_inert : Act.Inert (do pure (← get).base : Act InlineStore Addr) :=
  Act.Inert.get.bind fun _ => .pure _

theorem counted : Storage.Counted InlineStore where
  allocate := allocate_counts
  deallocate := deallocate_counts
  resizeWith _ _ _ _ :=
    Act.resizeBy_counts resize_counts (fun _ => .of_reads base_inert.1) epoch_withSpace _ _ _ _
  setMemory := epoch_withSpace
  dangling _ := .pure _
  resolve _ := base_inert
  sizeOf _ := Act.Inert.get.bind fun _ => .pure _

end InlineStore

/-! ## Counting before asking -/

namespace Act

variable {σ τ α β : Type} {c : σ → UInt64}

theorem leaves_bind_ok {x : Act σ α} {g : α → Act σ β} {s s' : σ} {a : α}
    (h : x.run s = .ok a s') : Act.leaves (x >>= g) s = Act.leaves (g a) s' := by
  unfold Act.leaves
  rw [run_bind_ok h]

theorem leaves_bind_error {x : Act σ α} {g : α → Act σ β} {s s' : σ} {f : Fault}
    (h : x.run s = .error f s') : Act.leaves (x >>= g) s = s' := by
  unfold Act.leaves
  rw [run_bind_error h]

/-- Whatever `x` does, answer or fault, it moves the counter `c` on by `k`. -/
def Moves (c : σ → UInt64) (k : UInt64) (x : Act σ α) : Prop :=
  ∀ s, c (Act.leaves x s) = c s + k

theorem Moves.of_inert {x : Act σ α} (h : Inert x) : Moves c 0 x := by
  intro s
  cases hx : x.run s with
  | ok a s' => rw [Act.leaves_of_ok hx, h.1 s a s' hx, UInt64.add_zero]
  | error f s' => rw [Act.leaves_of_error hx, h.2 s f s' hx, UInt64.add_zero]

theorem Moves.leaves_eq {x : Act σ α} (h : Moves c 0 x) (s : σ) : c (Act.leaves x s) = c s :=
  (h s).trans (UInt64.add_zero _)

theorem Moves.counts {x : Act σ α} {k : UInt64} (h : Moves c k x) : Counts c k x := by
  intro s a s' hrun
  rw [← Act.leaves_of_ok hrun]
  exact h s

theorem Moves.modify {f : σ → σ} {k : UInt64} (h : ∀ s, c (f s) = c s + k) :
    Moves c k (modify f : Act σ PUnit) :=
  fun s => h s

theorem Moves.focus {get : σ → τ} {put : σ → τ → σ} {act : Act τ α}
    (hput : ∀ s t, c (put s t) = c s) : Moves c 0 (focus get put act) := by
  intro s
  unfold Act.leaves
  rw [run_focus]
  cases act.run (get s) with
  | ok a t => exact (hput s t).trans (UInt64.add_zero _).symm
  | error f t => exact (hput s t).trans (UInt64.add_zero _).symm

theorem Moves.bind_zero {x : Act σ α} {g : α → Act σ β} {k : UInt64} (hx : Moves c k x)
    (hg : ∀ a, Moves c 0 (g a)) : Moves c k (x >>= g) := by
  intro s
  cases hxs : x.run s with
  | ok a s' =>
    have hk := hx s
    rw [Act.leaves_of_ok hxs] at hk
    rw [leaves_bind_ok hxs, hg a s', hk, UInt64.add_zero]
  | error f s' =>
    have hk := hx s
    rw [Act.leaves_of_error hxs] at hk
    rw [leaves_bind_error hxs, hk]

theorem zero_moves (memory : σ → Space) (setMemory : σ → Space → σ)
    (hmem : ∀ s m, c (setMemory s m) = c s) (p : Addr) (lo hi : Int64) :
    Moves c 0 (do
      let m ← Act.ofExcept (Memory.clear (memory (← get)) p lo hi)
      modify fun s => setMemory s m : Act σ Unit) :=
  (Moves.of_inert .get).bind_zero fun _ => (Moves.of_inert (.ofExcept _)).bind_zero fun _ =>
    .modify fun s => by rw [hmem, UInt64.add_zero]

theorem leaves_resizeBy {H : Type} {resolve : H → Act σ Addr} {memory : σ → Space}
    {setMemory : σ → Space → σ} {resize : Bool → H → Layout → Layout → Region → Act σ (H × Int64)}
    (hresolve : ∀ h, Inert (resolve h)) (hmem : ∀ s m, c (setMemory s m) = c s)
    (form : ResizeForm) (h : H) (old new : Layout) (s : σ) :
    c (Act.leaves (resizeBy resolve memory setMemory resize form h old new) s) =
      c (Act.leaves (resize form.grow h old new (form.kept old new)) s) := by
  unfold resizeBy
  cases hr : (resize form.grow h old new (form.kept old new)).run s with
  | error f s₁ => rw [leaves_bind_error hr, Act.leaves_of_error hr]
  | ok hn s₁ =>
    obtain ⟨h', n⟩ := hn
    rw [leaves_bind_ok hr, Act.leaves_of_ok hr]
    refine Moves.leaves_eq ?_ s₁
    dsimp only
    split
    · refine (Moves.of_inert (hresolve h')).bind_zero fun p => ?_
      split
      · exact (zero_moves _ _ hmem _ _ _).bind_zero fun _ =>
          (zero_moves _ _ hmem _ _ _).bind_zero fun _ => .of_inert (.pure _)
      · exact (zero_moves _ _ hmem _ _ _).bind_zero fun _ => .of_inert (.pure _)
    · exact .of_inert (.pure _)

end Act

/-- A storage that counts every request that may change it before it acts, so that whatever a
    request does, the epoch has moved on: every allocation and free by one, every resize in any
    form by one or two, and by two when it answers (it allocates and frees). Writing memory does
    not move the epoch, and the calls that only look a handle up change nothing. -/
structure Storage.Advancing (σ : Type) {H : Type} [Storage σ H] : Prop where
  allocate : ∀ l, Act.Moves Storage.epoch 1 (Storage.allocate l : Act σ (H × Int64))
  deallocate : ∀ (h : H) l, Act.Moves Storage.epoch 1 (Storage.deallocate h l : Act σ Unit)
  resizeWith : ∀ form (h : H) old new (s : σ),
    Storage.epoch (Act.leaves (Storage.resizeWith form h old new : Act σ (H × Int64)) s) =
      Storage.epoch (H := H) s + 1 ∨
    Storage.epoch (Act.leaves (Storage.resizeWith form h old new : Act σ (H × Int64)) s) =
      Storage.epoch (H := H) s + 2
  resizeWith_counts : ∀ form (h : H) old new,
    Act.Counts Storage.epoch 2 (Storage.resizeWith form h old new : Act σ (H × Int64))
  setMemory : ∀ (s : σ) m, Storage.epoch (Storage.setMemory (H := H) s m) = Storage.epoch (H := H) s
  dangling : ∀ align, Act.Inert (Storage.dangling align : Act σ H)
  resolve : ∀ h : H, Act.Inert (Storage.resolve h : Act σ Addr)
  sizeOf : ∀ h : H, Act.Inert (Handle.sizeOf h : Act σ Int64)

namespace AllocBacking

variable {σ : Type} {B : AllocBacking σ}

/-- An allocator whose storage counts its requests: counting moves the epoch by one, and the
    allocator's own requests and writes to memory leave it. -/
structure Counted (B : AllocBacking σ) : Prop where
  bump : Act.Moves B.epoch 1 B.bump
  alloc : ∀ l, Act.Moves B.epoch 0 (B.alloc l)
  dealloc : ∀ p l, Act.Moves B.epoch 0 (B.dealloc p l)
  setMemory : ∀ s m, B.epoch (B.setMemory s m) = B.epoch s

theorem Counted.allocate (hB : B.Counted) (l : Layout) : Act.Moves B.epoch 1 (B.allocate l) :=
  hB.bump.bind_zero fun _ => hB.alloc l

theorem Counted.deallocate (hB : B.Counted) (p : Addr) (l : Layout) :
    Act.Moves B.epoch 1 (B.deallocate p l) :=
  hB.bump.bind_zero fun _ => hB.dealloc p l

theorem Counted.resize_counts (hB : B.Counted) (grow : Bool) (p : Addr) (old new : Layout)
    (r : Region) : Act.Counts B.epoch 2 (B.resize grow p old new r) := by
  intro s a s' hrun
  obtain ⟨⟨p', n⟩, s₁, halloc, hrun⟩ := Act.run_bind_eq_ok hrun
  have h₁ : B.epoch s₁ = B.epoch s + 1 := (hB.allocate new).counts s _ s₁ halloc
  rw [Act.run_bind_ok (Act.run_get s₁)] at hrun
  obtain ⟨m, s₃, hm, hrun⟩ := Act.run_bind_eq_ok hrun
  rw [Act.Reads.ofExcept _ _ _ _ hm, Act.run_bind_ok (Act.run_set _ _)] at hrun
  obtain ⟨_, s₅, hfree, hrun⟩ := Act.run_bind_eq_ok hrun
  cases hrun
  have h₂ : B.epoch s' = B.epoch (B.setMemory s₁ m) + 1 := (hB.deallocate p old).counts _ _ _ hfree
  rw [h₂, hB.setMemory, h₁, UInt64.add_assoc]
  rfl

/-- Whatever a resize does, it has counted the allocation it starts with, and the free it ends
    with if it gets there. -/
theorem Counted.resize_moves (hB : B.Counted) (grow : Bool) (p : Addr) (old new : Layout)
    (r : Region) (s : σ) :
    B.epoch (Act.leaves (B.resize grow p old new r) s) = B.epoch s + 1 ∨
      B.epoch (Act.leaves (B.resize grow p old new r) s) = B.epoch s + 2 := by
  unfold AllocBacking.resize
  cases halloc : (B.allocate new).run s with
  | error f s₁ =>
    left
    rw [Act.leaves_bind_error halloc, ← Act.leaves_of_error halloc]
    exact hB.allocate new s
  | ok pn s₁ =>
    obtain ⟨p', n⟩ := pn
    have h₁ : B.epoch s₁ = B.epoch s + 1 := (hB.allocate new).counts s _ s₁ halloc
    rw [Act.leaves_bind_ok halloc, Act.leaves_bind_ok (Act.run_get s₁)]
    cases hm : Memory.move (B.memory s₁) p' r.dst.toInt p r.src.toInt r.size with
    | error f =>
      left
      rw [Act.leaves_bind_error (Act.run_ofExcept_error f s₁), h₁]
    | ok m =>
      right
      rw [Act.leaves_bind_ok (Act.run_ofExcept_ok m s₁), Act.leaves_bind_ok (Act.run_set _ _)]
      rw [(hB.deallocate p old).bind_zero (fun _ => .of_inert (.pure _)) _, hB.setMemory, h₁,
        UInt64.add_assoc]
      rfl

theorem resolve_inert (p : Addr) : Act.Inert (pure p : Act σ Addr) := .pure _

theorem Counted.advancing (hB : B.Counted) : @Storage.Advancing σ Addr B.storage := by
  let := B.storage
  exact
    { allocate := hB.allocate
      deallocate := hB.deallocate
      resizeWith := fun form p old new s => by
        show B.epoch (Act.leaves (resizeBy _ B.memory B.setMemory B.resize form p old new) s) = _ ∨
          B.epoch (Act.leaves (resizeBy _ B.memory B.setMemory B.resize form p old new) s) = _
        rw [Act.leaves_resizeBy resolve_inert hB.setMemory]
        exact hB.resize_moves _ _ _ _ _ s
      resizeWith_counts := fun _ _ _ _ =>
        Act.resizeBy_counts hB.resize_counts (fun p => .of_reads (resolve_inert p).1)
          hB.setMemory _ _ _ _
      setMemory := hB.setMemory
      dangling := fun _ => .ofExcept _
      resolve := resolve_inert
      sizeOf := fun _ => .pure _ }

end AllocBacking

namespace AddressStore

@[simp] theorem epoch_withSpace (s : AddressStore) (m : Space) :
    (s.withSpace m).epoch = s.epoch := rfl

theorem onArena_moves {α : Type} (act : Act Arena α) : Act.Moves epoch 0 (onArena act) :=
  Act.Moves.focus fun _ _ => rfl

theorem backing_counted : backing.Counted where
  bump := .modify fun _ => rfl
  alloc _ := (onArena_moves _).bind_zero fun ⟨_, _⟩ => .of_inert (.pure _)
  dealloc
    | .offset _, _ => onArena_moves _
    | .null, _ => .of_inert (.fail _)
    | .dangling, _ => .of_inert (.fail _)
  setMemory := epoch_withSpace

theorem advancing : Storage.Advancing AddressStore := backing_counted.advancing

end AddressStore

/-! ## Remembering sizes -/

namespace Sized

variable {σ H : Type} [Storage σ H]

theorem onInner_counts {α : Type} {act : Act σ α} {k : UInt64}
    (h : Act.Counts (Storage.epoch (H := H)) k act) :
    Act.Counts (Storage.epoch (H := H)) k (onInner act : Act (Sized σ) α) := by
  intro s a s' hrun
  rw [onInner, Act.run_focus] at hrun
  cases hact : act.run s.inner with
  | ok a' t =>
    rw [hact] at hrun
    cases hrun
    exact h _ _ _ hact
  | error f t =>
    rw [hact] at hrun
    cases hrun

theorem onInner_inert {α : Type} {act : Act σ α} (h : Act.Inert act) :
    Act.Inert (onInner act : Act (Sized σ) α) := by
  refine ⟨fun s a s' hrun => ?_, fun s f s' hrun => ?_⟩
  · rw [onInner, Act.run_focus] at hrun
    cases hact : act.run s.inner with
    | ok a' t =>
      rw [hact] at hrun
      cases hrun
      rw [h.1 _ _ _ hact]
    | error f t =>
      rw [hact] at hrun
      cases hrun
  · rw [onInner, Act.run_focus] at hrun
    cases hact : act.run s.inner with
    | ok a' t =>
      rw [hact] at hrun
      cases hrun
    | error f t =>
      rw [hact] at hrun
      cases hrun
      rw [h.2 _ _ _ hact]

theorem onInner_moves {α : Type} {act : Act σ α} {k : UInt64}
    (h : Act.Moves (Storage.epoch (H := H)) k act) :
    Act.Moves (Storage.epoch (H := H)) k (onInner act : Act (Sized σ) α) := by
  intro s
  unfold Act.leaves
  rw [onInner, Act.run_focus]
  have hk := h s.inner
  unfold Act.leaves at hk
  cases hact : act.run s.inner with
  | ok a t =>
    rw [hact] at hk
    exact hk
  | error f t =>
    rw [hact] at hk
    exact hk

theorem size_counts (n : Int64) :
    Act.Counts (Storage.epoch (H := H)) 0
      (modify fun s : Sized σ => { s with size := n } : Act (Sized σ) PUnit) :=
  .modify fun _ => (UInt64.add_zero _).symm

theorem record_counts {act : Act σ (H × Int64)} {k : UInt64}
    (h : Act.Counts (Storage.epoch (H := H)) k act) :
    Act.Counts (Storage.epoch (H := H)) k (record act) :=
  (onInner_counts h).bind_zero fun r => (size_counts r.2).zero_bind fun _ => .pure _

theorem size_moves (n : Int64) :
    Act.Moves (Storage.epoch (H := H)) 0
      (modify fun s : Sized σ => { s with size := n } : Act (Sized σ) PUnit) :=
  .modify fun _ => (UInt64.add_zero _).symm

theorem record_moves {act : Act σ (H × Int64)} {k : UInt64}
    (h : Act.Moves (Storage.epoch (H := H)) k act) :
    Act.Moves (Storage.epoch (H := H)) k (record act) :=
  (onInner_moves h).bind_zero fun r => (size_moves r.2).bind_zero fun _ => .of_inert (.pure _)

theorem epoch_leaves_record (act : Act σ (H × Int64)) (s : Sized σ) :
    Storage.epoch (H := H) (Act.leaves (record act) s) =
      Storage.epoch (H := H) (Act.leaves act s.inner) := by
  unfold record onInner
  cases hact : act.run s.inner with
  | ok r t =>
    have hfocus : (Act.focus (·.inner) (fun s i => { s with inner := i }) act).run s =
        .ok r { s with inner := t } := by
      rw [Act.run_focus, hact]
    rw [Act.leaves_bind_ok hfocus, Act.leaves_bind_ok (Act.run_modify _ _), Act.leaves_of_ok hact]
    rfl
  | error f t =>
    have hfocus : (Act.focus (·.inner) (fun s i => { s with inner := i }) act).run s =
        .error f { s with inner := t } := by
      rw [Act.run_focus, hact]
    rw [Act.leaves_bind_error hfocus, Act.leaves_of_error hact]
    rfl

theorem size_inert : ∀ h : H, Act.Inert (Handle.sizeOf h : Act (Sized σ) Int64) :=
  fun _ => Act.Inert.get.bind fun _ => .pure _

end Sized

theorem Storage.Counted.sized {σ H : Type} [Storage σ H] (hc : Storage.Counted σ) :
    Storage.Counted (Sized σ) where
  allocate l := Sized.record_counts (hc.allocate l)
  deallocate h l := (Sized.onInner_counts (hc.deallocate h l)).bind_zero fun _ =>
    Sized.size_counts 0
  resizeWith form h old new := Sized.record_counts (hc.resizeWith form h old new)
  setMemory s m := hc.setMemory s.inner m
  dangling align := Sized.onInner_inert (hc.dangling align)
  resolve h := Sized.onInner_inert (hc.resolve h)
  sizeOf := Sized.size_inert

theorem Storage.Advancing.sized {σ H : Type} [Storage σ H] (hc : Storage.Advancing σ) :
    Storage.Advancing (Sized σ) where
  allocate l := Sized.record_moves (hc.allocate l)
  deallocate h l := (Sized.onInner_moves (hc.deallocate h l)).bind_zero fun _ =>
    Sized.size_moves 0
  resizeWith form h old new s := by
    rw [show (Storage.resizeWith form h old new : Act (Sized σ) (H × Int64)) =
      Sized.record (Storage.resizeWith form h old new) from rfl, Sized.epoch_leaves_record]
    exact hc.resizeWith form h old new s.inner
  resizeWith_counts form h old new := Sized.record_counts (hc.resizeWith_counts form h old new)
  setMemory s m := hc.setMemory s.inner m
  dangling align := Sized.onInner_inert (hc.dangling align)
  resolve h := Sized.onInner_inert (hc.resolve h)
  sizeOf := Sized.size_inert

end BlockArena
