import BlockArena.Proofs.Epoch

/-! # A reference reads back exactly while nothing changed

A reference is read back against the epoch of the storage it was taken from (`Ref.get`).
Take a run of operations on a state with a counter, each of one of three kinds (`Op.Counted`):
a change, which counts once when it answers and changes nothing when it is refused; a read,
which changes nothing at all; or an operation that counts before it acts, and so moves the
counter on by one or two whatever it does. If every operation of the run hands back an answer
or a refusal, the counter moves on by the number of counts (`Op.count_runAll`). So while the
run is shorter than `2^63`, a reference taken before it reads back after it exactly when the
run is quiet, and then the state is the one it was taken from (`Op.get_after_runAll`). On a
run of changes and reads, quiet means that no change answered (`Op.quiet_iff_unanswered`).

The calls of a block storage and of an inline storage, and of a storage that remembers sizes
over either, are changes and reads (`Storage.Counted.call`), and so is a block storage's
compaction; the calls of an address storage count before they act (`Storage.Advancing.call`).
On a well-formed block storage, every run of calls that keeps the client's promise hands back
answers and refusals only (`StoreCall.returnsAll`).
-/

set_option autoImplicit false

namespace BlockArena

/-- One operation on a state, whatever it answers. -/
structure Op (σ : Type) where
  {α : Type}
  act : Act σ α

namespace Op

variable {σ : Type} {c : σ → UInt64}

/-- The state the operation leaves, whether it answers or fails. -/
def run (o : Op σ) (s : σ) : σ := Act.leaves o.act s

/-- The operation answers from `s`. -/
def Answers (o : Op σ) (s : σ) : Prop := ∃ a s', o.act.run s = .ok a s'

/-- The operation hands back an answer or a refusal from `s`: it does not abort. -/
def Returns (o : Op σ) (s : σ) : Prop :=
  o.Answers s ∨ ∃ f s', o.act.run s = .error f s' ∧ f.aborts = false

/-- A change: every answer counts once, and a refusal changes nothing. -/
def Changes (c : σ → UInt64) (o : Op σ) : Prop := Act.Counts c 1 o.act ∧ Act.Firm id o.act

/-- An operation that counts before it acts: whatever it does, it moves the counter on by one
    or two. -/
def Advances (c : σ → UInt64) (o : Op σ) : Prop :=
  ∀ s, c (o.run s) = c s + 1 ∨ c (o.run s) = c s + 2

/-- A change, a read or an operation that counts before it acts, as the counter `c` sees it. -/
def Counted (c : σ → UInt64) (o : Op σ) : Prop :=
  o.Changes c ∨ Act.Inert o.act ∨ o.Advances c

/-- The operation keeps still from `s`: it is not a change that answers there, and it does
    not count before it acts. -/
def Still (c : σ → UInt64) (o : Op σ) (s : σ) : Prop :=
  ¬ (o.Changes c ∧ o.Answers s) ∧ ¬ o.Advances c

/-- Run the operations in order, each on the state the ones before it leave. -/
def runAll (os : List (Op σ)) (s : σ) : σ := os.foldl (fun s o => o.run s) s

@[simp] theorem runAll_nil (s : σ) : runAll [] s = s := rfl

@[simp] theorem runAll_cons (o : Op σ) (os : List (Op σ)) (s : σ) :
    runAll (o :: os) s = runAll os (o.run s) := rfl

/-- Every operation of the run hands back an answer or a refusal. -/
def ReturnsAll : List (Op σ) → σ → Prop
  | [], _ => True
  | o :: os, s => o.Returns s ∧ ReturnsAll os (o.run s)

/-- Every operation of the run keeps still where it is made. -/
def Quiet (c : σ → UInt64) : List (Op σ) → σ → Prop
  | [], _ => True
  | o :: os, s => o.Still c s ∧ Quiet c os (o.run s)

/-- No change of the run answers. -/
def Unanswered (c : σ → UInt64) : List (Op σ) → σ → Prop
  | [], _ => True
  | o :: os, s => ¬ (o.Changes c ∧ o.Answers s) ∧ Unanswered c os (o.run s)

theorem add_ne_self (x : UInt64) {k : UInt64} (hk : k ≠ 0) : x + k ≠ x :=
  fun h => hk (add_eq_left.mp h)

theorem run_eq_of_inert {o : Op σ} (h : Act.Inert o.act) (s : σ) : o.run s = s := by
  unfold run Act.leaves
  cases hrun : o.act.run s with
  | ok a s' => exact h.1 s a s' hrun
  | error f s' => exact h.2 s f s' hrun

/-- An operation that left the state it found did not move the counter, so it does not count
    before it acts. -/
theorem not_advances {o : Op σ} {s : σ} (h : o.run s = s) : ¬ o.Advances c := by
  intro hadv
  rcases hadv s with h1 | h2
  · rw [h] at h1
    exact add_ne_self (c s) (by decide) h1.symm
  · rw [h] at h2
    exact add_ne_self (c s) (by decide) h2.symm

theorem run_eq_of_unanswered {o : Op σ} {s : σ} (hk : o.Changes c ∨ Act.Inert o.act)
    (hr : o.Returns s) (hna : ¬ (o.Changes c ∧ o.Answers s)) : o.run s = s := by
  rcases hk with hch | hinert
  · rcases hr with hans | ⟨f, s', herr, hf⟩
    · exact absurd ⟨hch, hans⟩ hna
    · rw [run, Act.leaves_of_error herr]
      exact hch.2 s f s' herr hf
  · exact run_eq_of_inert hinert s

theorem run_of_answers {o : Op σ} {s : σ} (hch : o.Changes c) (hans : o.Answers s) :
    c (o.run s) = c s + 1 := by
  obtain ⟨a, s', hok⟩ := hans
  rw [run, Act.leaves_of_ok hok]
  exact hch.1 s a s' hok

/-- One operation that returns either keeps still and leaves the state it found, or moves the
    counter on by one or two. -/
theorem step {o : Op σ} {s : σ} (hk : o.Counted c) (hr : o.Returns s) :
    (¬ o.Still c s ∧ ∃ k : Nat, 1 ≤ k ∧ k ≤ 2 ∧ c (o.run s) = c s + UInt64.ofNat k) ∨
      (o.Still c s ∧ o.run s = s) := by
  rcases hk with hch | hinert | hadv
  · by_cases hans : o.Answers s
    · exact .inl ⟨fun h => h.1 ⟨hch, hans⟩, 1, le_rfl, by omega, run_of_answers hch hans⟩
    · -- a refused change leaves the state it found
      have hna : ¬ (o.Changes c ∧ o.Answers s) := fun h => hans h.2
      have hsame := run_eq_of_unanswered (.inl hch) hr hna
      exact .inr ⟨⟨hna, not_advances hsame⟩, hsame⟩
  · -- a read leaves the state it found; were it also a change, its answer would count
    have hsame := run_eq_of_inert hinert s
    have hna : ¬ (o.Changes c ∧ o.Answers s) := fun ⟨hch, hans⟩ => by
      have hcount := run_of_answers hch hans
      rw [hsame] at hcount
      exact add_ne_self (c s) (by decide) hcount.symm
    exact .inr ⟨⟨hna, not_advances hsame⟩, hsame⟩
  · refine .inl ⟨fun h => h.2 hadv, ?_⟩
    rcases hadv s with h1 | h2
    · exact ⟨1, le_rfl, by omega, h1⟩
    · exact ⟨2, by omega, le_rfl, h2⟩

/-- Over a run that returns throughout, the counter moves on by one or two for every operation
    that does not keep still, and by none exactly when the run is quiet, which leaves the state
    as it was. -/
theorem count_runAll : ∀ (os : List (Op σ)) (s : σ), (∀ o ∈ os, o.Counted c) →
    ReturnsAll os s →
    ∃ n : Nat, n ≤ 2 * os.length ∧ c (runAll os s) = c s + UInt64.ofNat n ∧
      (n = 0 ↔ Quiet c os s) ∧ (Quiet c os s → runAll os s = s)
  | [], s, _, _ => ⟨0, le_rfl, (UInt64.add_zero _).symm, iff_of_true rfl trivial, fun _ => rfl⟩
  | o :: os, s, hk, ⟨hr, hrs⟩ => by
    obtain ⟨n, hn, hc, hzero, hsame⟩ :=
      count_runAll os (o.run s) (fun o' ho' => hk o' (List.mem_cons_of_mem _ ho')) hrs
    rcases step (hk o List.mem_cons_self) hr with ⟨hnot, k, hk1, hk2, hmove⟩ | ⟨hstill, hstay⟩
    · -- the first operation moved the counter on by `k`
      refine ⟨k + n, by simp only [List.length_cons]; omega, ?_, ?_, ?_⟩
      · rw [runAll_cons, hc, hmove, UInt64.ofNat_add, UInt64.add_assoc]
      · exact iff_of_false (by omega) fun h => hnot h.1
      · exact fun h => absurd h.1 hnot
    · rw [hstay] at hc hzero hsame
      refine ⟨n, by simp only [List.length_cons]; omega, ?_, ?_, ?_⟩
      · rw [runAll_cons, hstay, hc]
      · rw [hzero]
        exact ⟨fun h => ⟨hstill, by rw [hstay]; exact h⟩, fun h => by rw [← hstay]; exact h.2⟩
      · intro h
        rw [runAll_cons, hstay]
        exact hsame (by rw [← hstay]; exact h.2)

theorem ofNat_eq_zero {n : Nat} (hn : n < 2 ^ 64) : UInt64.ofNat n = 0 ↔ n = 0 := by
  constructor
  · intro h
    have := congrArg UInt64.toNat h
    rwa [UInt64.toNat_ofNat_of_lt' hn] at this
  · rintro rfl
    rfl

/-- A reference taken before a run of fewer than `2^63` operations that returns throughout
    reads back after it exactly when the run is quiet; otherwise reading it aborts as stale.
    When it reads back, the state is the one it was taken from. -/
theorem get_after_runAll (os : List (Op σ)) (s : σ) (v : View) (hk : ∀ o ∈ os, o.Counted c)
    (hr : ReturnsAll os s) (hlen : 2 * os.length < 2 ^ 64) :
    (Ref.get (some ⟨v, c s⟩) (c (runAll os s)) = .ok v ↔ Quiet c os s) ∧
      (¬ Quiet c os s →
        Ref.get (some ⟨v, c s⟩) (c (runAll os s)) = .error (.staleEpoch (c s) (c (runAll os s))) ∧
        (Fault.staleEpoch (c s) (c (runAll os s))).kind = .staleReference ∧
        (Fault.staleEpoch (c s) (c (runAll os s))).aborts = true) ∧
      (Quiet c os s → runAll os s = s) := by
  obtain ⟨n, hn, hc, hzero, hsame⟩ := count_runAll os s hk hr
  -- the counter is where it was exactly when nothing was counted
  have hkeep : c s = c (runAll os s) ↔ Quiet c os s := by
    rw [hc, eq_comm, add_eq_left, ofNat_eq_zero (by omega), hzero]
  refine ⟨?_, fun hne => ⟨?_, rfl, rfl⟩, hsame⟩
  · simp only [Ref.get]
    by_cases h : c s = c (runAll os s)
    · simp only [if_pos h, hkeep.1 h]
    · simp only [if_neg h, reduceCtorEq, false_iff]
      exact fun hu => h (hkeep.2 hu)
  · simp only [Ref.get]
    rw [if_neg fun h => hne (hkeep.1 h)]

/-- On a run of changes and reads that returns throughout, keeping still is not answering: the
    run is quiet exactly when no change of it answered. -/
theorem quiet_iff_unanswered : ∀ (os : List (Op σ)) (s : σ),
    (∀ o ∈ os, o.Changes c ∨ Act.Inert o.act) → ReturnsAll os s →
    (Quiet c os s ↔ Unanswered c os s)
  | [], _, _, _ => Iff.rfl
  | o :: os, s, hk, ⟨hr, hrs⟩ => by
    have ih := quiet_iff_unanswered os (o.run s)
      (fun o' ho' => hk o' (List.mem_cons_of_mem _ ho')) hrs
    have hstill : o.Still c s ↔ ¬ (o.Changes c ∧ o.Answers s) :=
      ⟨fun h => h.1, fun hna =>
        ⟨hna, not_advances (run_eq_of_unanswered (hk o List.mem_cons_self) hr hna)⟩⟩
    exact and_congr hstill ih

end Op

/-! ## The calls of a storage -/

/-- A call a client makes on a storage whose handles are `H`: the calls that only look (the
    dangling handle, an address, a recorded size) and the calls that may change it. -/
inductive Storage.Call (H : Type) where
  | dangling (align : UInt64)
  | resolve (h : H)
  | sizeOf (h : H)
  | allocate (l : Layout)
  | allocateZeroed (l : Layout)
  | deallocate (h : H) (l : Layout)
  | resize (form : ResizeForm) (h : H) (old new : Layout)

namespace Storage.Call

variable {σ H : Type} [Storage σ H]

/-- The call may change the storage. -/
def mutates : Storage.Call H → Bool
  | dangling _ | resolve _ | sizeOf _ => false
  | allocate _ | allocateZeroed _ | deallocate _ _ | resize _ _ _ _ => true

/-- The operation a call makes on a storage `σ`. -/
def op : Storage.Call H → Op σ
  | dangling align => ⟨(Storage.dangling align : Act σ H)⟩
  | resolve h => ⟨(Storage.resolve h : Act σ Addr)⟩
  | sizeOf h => ⟨(Handle.sizeOf h : Act σ Int64)⟩
  | allocate l => ⟨(Storage.allocate l : Act σ (H × Int64))⟩
  | allocateZeroed l => ⟨(Storage.allocateZeroed l : Act σ (H × Int64))⟩
  | deallocate h l => ⟨(Storage.deallocate h l : Act σ Unit)⟩
  | resize form h old new => ⟨(Storage.resizeWith form h old new : Act σ (H × Int64))⟩

theorem op_inert (hd : ∀ align, Act.Inert (Storage.dangling align : Act σ H))
    (hr : ∀ h : H, Act.Inert (Storage.resolve h : Act σ Addr))
    (hs : ∀ h : H, Act.Inert (Handle.sizeOf h : Act σ Int64)) :
    ∀ call : Storage.Call H, call.mutates = false → Act.Inert (call.op (σ := σ)).act
  | dangling align, _ => hd align
  | resolve h, _ => hr h
  | sizeOf h, _ => hs h

end Storage.Call

/-- On a storage that counts its changes, refuses without changing anything and frees without
    refusing, every call that may change it is a change, and every other call a read. -/
theorem Storage.Counted.call {σ H : Type} [Storage σ H] (hc : Storage.Counted σ)
    (ha : Storage.Atomic (σ := σ) id)
    (hfree : ∀ (h : H) l, Act.Firm id (Storage.deallocate h l : Act σ Unit))
    (call : Storage.Call H) :
    (call.mutates = true → (call.op (σ := σ)).Changes Storage.epoch) ∧
      (call.mutates = false → Act.Inert (call.op (σ := σ)).act) := by
  refine ⟨fun hm => ?_, Storage.Call.op_inert hc.dangling hc.resolve hc.sizeOf call⟩
  cases call with
  | dangling | resolve | sizeOf => cases hm
  | allocate l => exact ⟨hc.allocate l, ha.allocate l⟩
  | allocateZeroed l => exact ⟨hc.allocateZeroed l, ha.allocateZeroed l⟩
  | deallocate h l => exact ⟨hc.deallocate h l, hfree h l⟩
  | resize form h old new => exact ⟨hc.resizeWith form h old new, ha.resizeWith form h old new⟩

theorem Storage.Advancing.allocateZeroed {σ H : Type} [Storage σ H] (hc : Storage.Advancing σ)
    (l : Layout) : Act.Moves Storage.epoch 1 (Storage.allocateZeroed l : Act σ (H × Int64)) := by
  unfold Storage.allocateZeroed
  refine (hc.allocate l).bind_zero fun ⟨h, n⟩ => ?_
  exact (Act.Moves.of_inert (hc.resolve h)).bind_zero fun p =>
    (Act.zero_moves _ _ hc.setMemory _ _ _).bind_zero fun _ => .of_inert (.pure _)

/-- On a storage that counts before it acts, every call that may change it moves the epoch on,
    whatever it answers, and every other call is a read. -/
theorem Storage.Advancing.call {σ H : Type} [Storage σ H] (hc : Storage.Advancing σ)
    (call : Storage.Call H) :
    (call.mutates = true → (call.op (σ := σ)).Advances Storage.epoch) ∧
      (call.mutates = false → Act.Inert (call.op (σ := σ)).act) := by
  refine ⟨fun hm => ?_, Storage.Call.op_inert hc.dangling hc.resolve hc.sizeOf call⟩
  cases call with
  | dangling | resolve | sizeOf => cases hm
  | allocate l => exact fun s => .inl (hc.allocate l s)
  | allocateZeroed l => exact fun s => .inl (hc.allocateZeroed l s)
  | deallocate h l => exact fun s => .inl (hc.deallocate h l s)
  | resize form h old new => exact hc.resizeWith form h old new

/-! ## Frees and remembered sizes -/

theorem BlockStore.deallocate_firm (h : UInt64) (l : Layout) :
    Act.Firm id (BlockStore.deallocate h l) := by
  unfold BlockStore.deallocate
  exact (BlockStore.lookup_firm h).bind_reads (BlockStore.lookup_reads h) fun _ =>
    .of_onlyAborts ((Arena.dealloc_onlyAborts _ _).focus.bind fun _ =>
      (Act.OnlyAborts.modify _).bind fun _ => .modify _)

theorem InlineStore.deallocate_firm (h : Unit) (l : Layout) :
    Act.Firm id (InlineStore.deallocate h l) :=
  .of_onlyAborts ((Act.OnlyAborts.modify _).bind fun _ => .modify _)

namespace Sized

variable {σ H : Type}

theorem onInner_firm {α : Type} {act : Act σ α} (h : Act.Firm id act) :
    Act.Firm id (onInner act : Act (Sized σ) α) :=
  Act.Firm.focus h fun _ => rfl

theorem record_firm {act : Act σ (H × Int64)} (h : Act.Firm id act) :
    Act.Firm id (record act) :=
  (onInner_firm h).bind_onlyAborts fun _ => (Act.OnlyAborts.modify _).bind fun _ => .pure _

theorem deallocate_firm [Storage σ H]
    (hfree : ∀ (h : H) l, Act.Firm id (Storage.deallocate h l : Act σ Unit))
    (h : H) (l : Layout) : Act.Firm id (Storage.deallocate h l : Act (Sized σ) Unit) :=
  (onInner_firm (hfree h l)).bind_onlyAborts fun _ => .modify _

end Sized

/-- Remembering sizes keeps a storage whose refusals change nothing so: a size is taken only
    from an answer. -/
theorem Storage.Atomic.sized {σ H : Type} [Storage σ H] (ha : Storage.Atomic (σ := σ) id) :
    Storage.Atomic (σ := Sized σ) id where
  dangling align := Sized.onInner_firm (ha.dangling align)
  allocate l := Sized.record_firm (ha.allocate l)
  resizeWith form h old new := Sized.record_firm (ha.resizeWith form h old new)
  resolve h := (ha.resolve h).focus
  sizeOf_onlyAborts _ := Act.OnlyAborts.get.bind fun _ => .pure _
  sizeOf_reads h := (Sized.size_inert h).1

/-! ## Compaction -/

namespace BlockStore

/-- Relocating one allocation during a compaction never refuses: a refused relocation leaves the
    allocation where it is. -/
theorem compactOne_onlyAborts (c : Compaction) (he : UInt64 × BlockEntry) :
    Act.OnlyAborts (compactOne c he) := by
  intro s f s' hrun
  obtain ⟨h, e⟩ := he
  rcases compactOne_cases c h e s with hok | ⟨f', a, -, hab, herr⟩ |
      ⟨off, size, a, -, -, ⟨f', hmove, herr⟩ | ⟨m, -, hok⟩⟩
  · rw [hok] at hrun
    cases hrun
  · rw [herr] at hrun
    cases hrun
    exact hab
  · rw [herr] at hrun
    cases hrun
    exact Memory.move_aborts hmove
  · rw [hok] at hrun
    cases hrun

theorem foldCompact_onlyAborts : ∀ (todo : List (UInt64 × BlockEntry)) (c : Compaction),
    Act.OnlyAborts (todo.foldlM compactOne c)
  | [], _ => .pure _
  | he :: todo, c => by
    rw [List.foldlM_cons]
    exact (compactOne_onlyAborts c he).bind fun c' => foldCompact_onlyAborts todo c'

theorem compact_onlyAborts : Act.OnlyAborts compact :=
  Act.OnlyAborts.get.bind fun _ => (foldCompact_onlyAborts _ _).bind fun _ =>
    (Act.OnlyAborts.modify _).bind fun _ => .pure _

end BlockStore

/-! ## Runs of calls on a block storage -/

namespace StoreCall

/-- The operation a call makes on a block storage. -/
def op : StoreCall → Op BlockStore
  | allocate l => (Storage.Call.allocate l).op
  | allocateZeroed l => (Storage.Call.allocateZeroed l).op
  | deallocate h l => (Storage.Call.deallocate h l).op
  | resize form h old new => (Storage.Call.resize form h old new).op
  | compact => ⟨BlockStore.compact⟩

theorem op_run (c : StoreCall) (s : BlockStore) : c.op.run s = c.run s := by
  cases c <;> rfl

theorem runAll_map_op : ∀ (cs : List StoreCall) (s : BlockStore),
    Op.runAll (cs.map op) s = runAll cs s
  | [], _ => rfl
  | c :: cs, s => by
    rw [List.map_cons, Op.runAll_cons, runAll_cons, op_run, runAll_map_op cs]

/-- Every call on a block storage is a change: each answer counts once, compaction included, and
    a refusal changes nothing. -/
theorem op_changes : ∀ c : StoreCall, c.op.Changes Storage.epoch
  | allocate l =>
    (BlockStore.counted.call BlockStore.atomic BlockStore.deallocate_firm (.allocate l)).1 rfl
  | allocateZeroed l =>
    (BlockStore.counted.call BlockStore.atomic BlockStore.deallocate_firm (.allocateZeroed l)).1 rfl
  | deallocate h l =>
    (BlockStore.counted.call BlockStore.atomic BlockStore.deallocate_firm (.deallocate h l)).1 rfl
  | resize form h old new =>
    (BlockStore.counted.call BlockStore.atomic BlockStore.deallocate_firm
      (.resize form h old new)).1 rfl
  | compact => ⟨BlockStore.compact_counts, .of_onlyAborts BlockStore.compact_onlyAborts⟩

/-- On a well-formed store with handle numbers left, a call that keeps the client's promise
    answers, or refuses and leaves the store as it was. -/
theorem refuses_or_answers {s : BlockStore} (hw : s.WellFormed)
    (hroom : s.nextHandle.toNat + 1 < 2 ^ 64) {c : StoreCall} (hc : c.Allowed s) :
    (∃ f, f.Refusal ∧ c.op.act.run s = .error f s) ∨ c.op.Answers s := by
  cases c with
  | allocate l =>
    rcases hw.allocate_step hc.2 hroom with hf | ⟨e, s', hrun, -⟩
    · exact .inl hf
    · exact .inr ⟨_, s', hrun⟩
  | allocateZeroed l =>
    rcases hw.allocateZeroed_cases hc.2 hroom with hf | ⟨r, s', hrun, -⟩
    · exact .inl hf
    · exact .inr ⟨r, s', hrun⟩
  | deallocate h l =>
    obtain ⟨⟨e, hl⟩, -⟩ := hc
    obtain ⟨s', hrun, -⟩ := hw.deallocate_run hl l
    exact .inr ⟨(), s', hrun⟩
  | resize form h old new =>
    obtain ⟨e, hl, hold, hnew, hr⟩ := hc
    rcases hw.resizeWith_cases hl hold.2 hnew.2 hr with hf | ⟨n, s', hrun, -⟩
    · exact .inl hf
    · exact .inr ⟨_, s', hrun⟩
  | compact =>
    obtain ⟨c, s', hrun, -⟩ := hw.compact_run
    exact .inr ⟨c, _, hrun⟩

/-- On a well-formed store, a call that keeps the client's promise answers or refuses: it never
    aborts. -/
theorem returns {s : BlockStore} (hw : s.WellFormed) (hroom : s.nextHandle.toNat + 1 < 2 ^ 64)
    {c : StoreCall} (hc : c.Allowed s) : c.op.Returns s := by
  rcases refuses_or_answers hw hroom hc with ⟨f, hf, hrun⟩ | hans
  · exact .inr ⟨f, s, hrun, hf.2⟩
  · exact .inl hans

/-- A run of calls that keep the client's promise, no more than the handle numbers left, on a
    well-formed store answers or refuses throughout: the store stays well formed from call to
    call. -/
theorem returnsAll : ∀ (cs : List StoreCall) {s : BlockStore}, s.WellFormed →
    s.nextHandle.toNat + cs.length < 2 ^ 64 → Obeyed cs s → Op.ReturnsAll (cs.map op) s
  | [], _, _, _, _ => trivial
  | c :: cs, s, hw, hroom, ⟨hc, hcs⟩ => by
    rw [List.length_cons] at hroom
    have hf := hw.step (by omega) hc
    have hle := hf.next_le
    refine ⟨returns hw (by omega) hc, ?_⟩
    rw [op_run]
    exact returnsAll cs hf.wellFormed (by omega) hcs

end StoreCall

/-! ## The epoch guards references -/

/-- The epoch guards the references of every storage. A block storage and an inline storage, and
    a storage that remembers sizes over either, count every change that answers once, change
    nothing when they refuse, and change nothing at all when they only look; a block storage's
    compaction counts once whether it moves anything or not. An address storage, and one that
    remembers sizes over it, count every change before they act. Over a run of such calls that
    returns throughout and is shorter than `2^63`, a reference taken before the run reads back
    after it exactly when the run is quiet, and then the storage is the one it was taken from;
    otherwise reading it aborts as stale. On changes and reads, quiet means that no change
    answered, and on a well-formed block storage every run of calls that keeps the client's
    promise returns throughout. -/
theorem epochs_guard_references :
    (∀ call : Storage.Call UInt64,
      (call.mutates = true → (call.op (σ := BlockStore)).Changes Storage.epoch) ∧
        (call.mutates = false → Act.Inert (call.op (σ := BlockStore)).act)) ∧
    (∀ call : Storage.Call Unit,
      (call.mutates = true → (call.op (σ := InlineStore)).Changes Storage.epoch) ∧
        (call.mutates = false → Act.Inert (call.op (σ := InlineStore)).act)) ∧
    (∀ call : Storage.Call UInt64,
      (call.mutates = true → (call.op (σ := Sized BlockStore)).Changes Storage.epoch) ∧
        (call.mutates = false → Act.Inert (call.op (σ := Sized BlockStore)).act)) ∧
    (∀ call : Storage.Call Unit,
      (call.mutates = true → (call.op (σ := Sized InlineStore)).Changes Storage.epoch) ∧
        (call.mutates = false → Act.Inert (call.op (σ := Sized InlineStore)).act)) ∧
    (∀ c : StoreCall, c.op.Changes Storage.epoch) ∧
    (∀ call : Storage.Call Addr,
      (call.mutates = true → (call.op (σ := AddressStore)).Advances Storage.epoch) ∧
        (call.mutates = false → Act.Inert (call.op (σ := AddressStore)).act)) ∧
    (∀ call : Storage.Call Addr,
      (call.mutates = true → (call.op (σ := Sized AddressStore)).Advances Storage.epoch) ∧
        (call.mutates = false → Act.Inert (call.op (σ := Sized AddressStore)).act)) ∧
    (∀ {σ : Type} (c : σ → UInt64) (os : List (Op σ)) (s : σ) (v : View),
      (∀ o ∈ os, o.Counted c) → Op.ReturnsAll os s → 2 * os.length < 2 ^ 64 →
        (Ref.get (some ⟨v, c s⟩) (c (Op.runAll os s)) = .ok v ↔ Op.Quiet c os s) ∧
        (¬ Op.Quiet c os s →
          Ref.get (some ⟨v, c s⟩) (c (Op.runAll os s)) =
            .error (.staleEpoch (c s) (c (Op.runAll os s))) ∧
          (Fault.staleEpoch (c s) (c (Op.runAll os s))).kind = .staleReference ∧
          (Fault.staleEpoch (c s) (c (Op.runAll os s))).aborts = true) ∧
        (Op.Quiet c os s → Op.runAll os s = s)) ∧
    (∀ {σ : Type} (c : σ → UInt64) (os : List (Op σ)) (s : σ),
      (∀ o ∈ os, o.Changes c ∨ Act.Inert o.act) → Op.ReturnsAll os s →
        (Op.Quiet c os s ↔ Op.Unanswered c os s)) ∧
    (∀ (cs : List StoreCall) (s : BlockStore), s.WellFormed →
      s.nextHandle.toNat + cs.length < 2 ^ 64 → StoreCall.Obeyed cs s →
        Op.ReturnsAll (cs.map StoreCall.op) s) :=
  ⟨BlockStore.counted.call BlockStore.atomic BlockStore.deallocate_firm,
    InlineStore.counted.call InlineStore.atomic InlineStore.deallocate_firm,
    BlockStore.counted.sized.call BlockStore.atomic.sized
      (Sized.deallocate_firm BlockStore.deallocate_firm),
    InlineStore.counted.sized.call InlineStore.atomic.sized
      (Sized.deallocate_firm InlineStore.deallocate_firm),
    StoreCall.op_changes,
    AddressStore.advancing.call,
    AddressStore.advancing.sized.call,
    fun _ os s v hk hr hlen => Op.get_after_runAll os s v hk hr hlen,
    fun _ os s hk hr => Op.quiet_iff_unanswered os s hk hr,
    fun cs _ hw hroom hob => StoreCall.returnsAll cs hw hroom hob⟩

/-- Freeing the buffer of an inline storage makes a reference taken before it stale. -/
theorem freed_inline_buffer_stales_reference :
    Ref.get (some ⟨default, 0⟩)
        (Op.runAll [(Storage.Call.deallocate () ⟨4, 1⟩).op]
          ({ elem := .u8, capacity := 4, bytes := ⟨#[0, 0, 0, 0]⟩, allocated := true } :
            InlineStore)).epoch =
      .error (.staleEpoch 0 1) := by
  have hch := (epochs_guard_references.2.1 (.deallocate () ⟨4, 1⟩)).1 rfl
  have hans : Op.Answers ((Storage.Call.deallocate () ⟨4, 1⟩).op (σ := InlineStore))
      { elem := .u8, capacity := 4, bytes := ⟨#[0, 0, 0, 0]⟩, allocated := true } :=
    ⟨(), _, rfl⟩
  have hrun := epochs_guard_references.2.2.2.2.2.2.2.1 Storage.epoch
    [(Storage.Call.deallocate () ⟨4, 1⟩).op]
    ({ elem := .u8, capacity := 4, bytes := ⟨#[0, 0, 0, 0]⟩, allocated := true } : InlineStore)
    default
    (fun o ho => by
      rw [List.mem_singleton] at ho
      subst ho
      exact .inl hch)
    ⟨.inl hans, trivial⟩ (by decide)
  exact (hrun.2.1 fun hq => hq.1.1 ⟨hch, hans⟩).1

end BlockArena
