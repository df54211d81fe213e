import BlockArena.Proofs.ResizeContract
import BlockArena.Proofs.HeapAccounting
import BlockArena.Storage.Heap

/-! # A storage over the process heap keeps the resize promise

An allocation storage over the heap (`HeapStore`) resizes as every allocation storage does: it
allocates for the new layout, copies the kept region over and frees the old allocation. The
runtime hands the heap the new buffer zeroed, so the copy reads the region as it was only if the
new buffer lies apart from the old allocation's bytes. That is what the heap asks of the runtime
(`Heap.Apart`), and on every heap its calls reach, the bytes served at each live address lie in
that allocation's own buffer (`Heap.Reaches.servedInside`). So a resize of a live allocation
keeps its promise (`HeapStore.keepsResize`), and with it every storage of the library does
(`resizes_keep_their_promise`).
-/

set_option autoImplicit false

namespace BlockArena

namespace HeapStore

variable {s s' : HeapStore}

theorem bump_run (s : HeapStore) : backing.bump.run s = .ok () { s with epoch := s.epoch + 1 } :=
  rfl

theorem backing_memory (s : HeapStore) : backing.memory s = s.space := rfl

theorem onHeap_run {α : Type} (act : Act Heap α) (s : HeapStore) :
    (onHeap act).run s = match act.run s.heap with
      | .ok x h => .ok x { s with heap := h }
      | .error f h => .error f { s with heap := h } := by
  unfold onHeap
  rw [Act.run_focus]
  cases act.run s.heap <;> rfl

/-- An allocation that answers served the layout from the buffer the runtime placed for it, and
    zeroed that buffer. -/
theorem allocate_run_ok {l : Layout} {p : Addr} {n : Int64}
    (hrun : (backing.allocate l).run s = .ok (p, n) s') :
    l.check = .ok () ∧ ¬Heap.limit - Heap.padding l < Heap.served l ∧
      p = addr (Heap.alignedIn (s.bufferFor l).1 l.align) ∧ n = Heap.served l ∧
      s'.space = s.space.fill0 (pos (s.bufferFor l).1)
        (pos (s.bufferFor l).1 + (s.bufferFor l).2.toInt) := by
  unfold AllocBacking.allocate at hrun
  rw [Act.run_bind_ok (bump_run s)] at hrun
  change (alloc l).run _ = _ at hrun
  unfold alloc at hrun
  rw [Act.run_bind_ok (Act.run_get _)] at hrun
  obtain ⟨⟨ptr, n'⟩, t, hheap, hrest⟩ := Act.run_bind_eq_ok hrun
  rw [onHeap_run] at hheap
  split at hheap
  · rename_i h' hserve
    cases hheap
    obtain ⟨hc, hlim⟩ := Heap.fits_of_alloc_ok _ _ hserve
    rw [Heap.alloc_of_fits _ _ hc hlim] at hserve
    cases hserve
    rw [Act.run_bind_ok (Act.run_modify _ _), Act.run_pure] at hrest
    cases hrest
    exact ⟨hc, hlim, rfl, rfl, rfl⟩
  · cases hheap

theorem deallocate_space {p : Addr} {l : Layout} {u : Unit}
    (hrun : (backing.deallocate p l).run s = .ok u s') : s'.space = s.space := by
  unfold AllocBacking.deallocate at hrun
  rw [Act.run_bind_ok (bump_run s)] at hrun
  change (dealloc p l).run _ = _ at hrun
  cases p with
  | offset off =>
    change (onHeap _).run _ = _ at hrun
    rw [onHeap_run] at hrun
    split at hrun
    · cases hrun
      rfl
    · cases hrun
  | null => cases hrun
  | dangling => cases hrun

/-- The byte at a position no new buffer covers is not touched by the zeroing of that buffer:
    a source byte inside a live allocation's buffer, which the runtime placed the new buffer
    apart from. -/
theorem pos_outside_of_apart {h : Heap} (hi : h.ServedInside) {ptr : UInt64} {buf : HeapBuffer}
    (hlive : (ptr, buf) ∈ h.live) {base : UInt64} {len : Int64} (hap : h.Apart base len)
    (hlen : 0 ≤ len.toInt) {k : Int} (hk0 : 0 ≤ k) (hk : k < buf.size.toInt) :
    ¬(pos base ≤ pos ptr + k ∧ pos ptr + k < pos base + len.toInt) := by
  have hin := hi _ hlive
  have hsep := hap.2 _ hlive
  simp only [pos] at hin hsep ⊢
  omega

variable {ptr : UInt64} {buf : HeapBuffer} {old new : Layout}

/-- A plain resize of a live allocation of at least `old` bytes, to a new layout whose buffer
    the runtime places apart from the live ones, answers an allocation that holds the new layout
    and carries the region. -/
theorem resize_carried (hi : s.heap.ServedInside) (hlive : (ptr, buf) ∈ s.heap.live)
    (hold : old.size.toInt ≤ buf.size.toInt)
    (hap : s.heap.Apart (s.bufferFor new).1 (s.bufferFor new).2) {r : Region}
    (hr : r.Within old.size.toInt new.size.toInt) {grow : Bool} {p' : Addr} {n : Int64}
    {s₁ : HeapStore} (hrun : (backing.resize grow (addr ptr) old new r).run s = .ok (p', n) s₁) :
    new.size.toInt ≤ n.toInt ∧ r.Carried s.space (addr ptr) s₁.space p' := by
  obtain ⟨hsrc0, -, hsize0, hsrc, -⟩ := hr
  unfold AllocBacking.resize at hrun
  obtain ⟨⟨q, n₁⟩, t, halloc, hrest⟩ := Act.run_bind_eq_ok hrun
  obtain ⟨hc, hlim, rfl, rfl, hspace₀⟩ := allocate_run_ok halloc
  rw [Act.run_bind_ok (Act.run_get t)] at hrest
  obtain ⟨m, t₁, hm, hrest⟩ := Act.run_bind_eq_ok hrest
  obtain ⟨hmove, rfl⟩ := Act.ofExcept_run_ok hm
  rw [Act.run_bind_ok (Act.run_set _ _)] at hrest
  obtain ⟨u, t₂, hfree, hrest⟩ := Act.run_bind_eq_ok hrest
  rw [Act.run_pure] at hrest
  cases hrest
  have hspace₂ : s₁.space = m := deallocate_space hfree
  have hlen : 0 ≤ (s.bufferFor new).2.toInt := by
    show 0 ≤ (Heap.served new + Heap.padding new).toInt
    rw [Heap.length_toInt hc hlim]
    omega
  refine ⟨by rw [Heap.served_toInt hc]; omega, fun i hi' => ?_⟩
  -- the copy reads its source after the new buffer was zeroed, which the source lies apart from
  have hout := pos_outside_of_apart hi hlive hap hlen (k := r.src.toInt + i) (by omega) (by omega)
  show (s₁.space).byteAt (pos _ + (r.dst.toInt + i)) = s.space.byteAt (pos ptr + (r.src.toInt + i))
  rw [hspace₂, Memory.eq_copy_of_move hmove]
  unfold addr
  rw [Memory.byteAt_copy_any, if_pos (by omega)]
  rw [backing_memory, hspace₀, Space.byteAt_fill0_any, if_neg (by omega)]
  congr 1
  omega

/-- A resize of a live allocation of at least `old` bytes keeps its promise, on every heap that
    calls reach and in every form the caller admits, when the runtime places the buffer for the
    new layout apart from the live ones. -/
theorem keepsResize {L : List (UInt64 × Int64)} (hr : s.heap.Reaches L) {size : Int64}
    (hl : (ptr, size) ∈ L) (hold : old.size.toInt ≤ size.toInt)
    (hap : s.heap.Apart (s.bufferFor new).1 (s.bufferFor new).2) {form : ResizeForm}
    (ha : form.Admits old new) : Storage.KeepsResize s (addr ptr) form old new := by
  rw [← hr.keeps.entries] at hl
  obtain ⟨⟨q, buf⟩, hlive, heq⟩ := List.mem_map.1 hl
  simp only [Prod.mk.injEq] at heq
  obtain ⟨rfl, rfl⟩ := heq
  have hwithin := ha.kept_within
  refine ⟨_, rfl, fun p' n s' hrun => ?_⟩
  refine resizeBy_carries (fun _ _ => rfl) (fun t m p'' hp => ?_) hwithin
    (fun s₁ hplain => ⟨p', rfl, resize_carried hr.servedInside hlive hold hap hwithin hplain⟩) hrun
  cases hp
  rfl

end HeapStore

/-! ## Every storage -/

/-- A resize keeps its promise on every storage: a block storage with any flags, on a live
    handle; an address storage, on a tracked run; an inline storage whose buffer holds its
    capacity, as the buffer of every one that can be made does and goes on doing after every
    answered call; a storage that remembers sizes, whenever the storage it wraps does; and a heap
    storage, on a live allocation of a heap that calls reach, when the runtime places the new
    buffer apart from the live ones. -/
theorem resizes_keep_their_promise :
    (∀ (s : BlockStore) (h : UInt64) (e : BlockEntry) (form : ResizeForm) (old new : Layout),
      s.WellFormed → s.entries.lookup h = some e → old.size.toInt ≤ e.size.toInt →
      s.arena.Sized new → form.Admits old new → Storage.KeepsResize s h form old new) ∧
    (∀ (s : AddressStore) (live : List Extent) (x : Extent) (form : ResizeForm)
      (old new : Layout), Tracks s.arena live → x ∈ live →
      (s.arena.blocksFor old.size).toInt = x.count →
      old.size.toInt ≤ x.count * s.arena.blockSize.toInt → s.arena.Sized new →
      form.Admits old new →
      Storage.KeepsResize s (.offset (x.addr s.arena).toInt : Addr) form old new) ∧
    (∀ (e : Elem) (capacity : Int64) (s : InlineStore),
      InlineStore.create e capacity = .ok s → s.Backed) ∧
    (∀ (s : InlineStore) (call : Storage.Call Unit), s.Backed →
      (call.op (σ := InlineStore)).Answers s → ((call.op (σ := InlineStore)).run s).Backed) ∧
    (∀ (s : InlineStore) (form : ResizeForm) (old new : Layout), s.Backed →
      old.size.toInt ≤ s.capacityBytes.toInt → form.Admits old new →
      Storage.KeepsResize s () form old new) ∧
    (∀ {σ H : Type} [Storage σ H] (s : Sized σ) (h : H) (form : ResizeForm) (old new : Layout),
      Storage.KeepsResize s.inner h form old new → Storage.KeepsResize s h form old new) ∧
    (∀ (s : HeapStore) (L : List (UInt64 × Int64)) (ptr : UInt64) (size : Int64)
      (form : ResizeForm) (old new : Layout), s.heap.Reaches L → (ptr, size) ∈ L →
      old.size.toInt ≤ size.toInt → s.heap.Apart (s.bufferFor new).1 (s.bufferFor new).2 →
      form.Admits old new → Storage.KeepsResize s (HeapStore.addr ptr) form old new) := by
  refine ⟨?block, ?address, ?made, ?kept, ?inline, ?sized, ?heap⟩
  case block =>
    intro s h e form old new hw hl hold hnew ha
    exact hw.keepsResize hl hold hnew ha
  case address =>
    intro s live x form old new ht hx hold hle hnew ha
    exact AddressStore.keepsResize ht hx hold hle hnew ha
  case made =>
    intro e capacity s hs
    exact InlineStore.create_backed hs
  case kept =>
    intro s call hb hans
    exact InlineStore.backed_run hb call hans
  case inline =>
    intro s form old new hb hold ha
    exact InlineStore.keepsResize hb hold ha
  case sized =>
    intro σ H _ s h form old new hk
    exact Sized.keepsResize hk
  case heap =>
    intro s L ptr size form old new hr hl hold hap ha
    exact HeapStore.keepsResize hr hl hold hap ha

/-- Growing the first four bytes of a new inline buffer of sixteen bytes to eight keeps them; so
    does growing an allocation of eight bytes, the one a new heap served from a buffer at 2 TiB,
    to sixteen, when the runtime puts the next buffer at 4 TiB. -/
theorem growing_keeps_the_prefix :
    (∃ s : InlineStore, InlineStore.create .u8 16 = .ok s ∧
      Storage.KeepsResize s () ⟨true, false, none⟩ ⟨4, 1⟩ ⟨8, 1⟩) ∧
    ∃ (s : HeapStore) (ptr : UInt64),
      Storage.KeepsResize s (HeapStore.addr ptr) ⟨true, false, none⟩ ⟨8, 8⟩ ⟨16, 8⟩ := by
  constructor
  · obtain ⟨s, hs⟩ : ∃ s, InlineStore.create .u8 16 = .ok s := ⟨_, rfl⟩
    have hb := resizes_keep_their_promise.2.2.1 _ _ _ hs
    have hcap : s.capacityBytes = 16 := by
      cases hs
      rfl
    have ha : (⟨true, false, none⟩ : ResizeForm).Admits ⟨4, 1⟩ ⟨8, 1⟩ :=
      ⟨by decide, by decide, fun _ => by decide, (fun h => absurd h (by decide)),
        (fun r h => absurd h (by simp))⟩
    exact ⟨s, hs, resizes_keep_their_promise.2.2.2.2.1 s _ _ _ hb (by rw [hcap]; decide) ha⟩
  · have hc : (⟨8, 8⟩ : Layout).check = .ok () := rfl
    have hlim : ¬Heap.limit - Heap.padding ⟨8, 8⟩ < Heap.served ⟨8, 8⟩ := by decide
    have hrun := Heap.alloc_of_fits (fun _ => 2199023255552) {} hc hlim
    have hr := Heap.Reaches.alloc_ok Heap.Reaches.new
      ⟨by decide, fun e he => absurd he List.not_mem_nil⟩ hrun
    have ha : (⟨true, false, none⟩ : ResizeForm).Admits ⟨8, 8⟩ ⟨16, 8⟩ :=
      ⟨by decide, by decide, fun _ => by decide, fun h => absurd h (by decide),
        fun r h => absurd h (by simp)⟩
    refine ⟨{ heap := _, runtime := fun k _ => UInt64.ofNat ((k + 1) * 2199023255552), asked := 1 },
      _, resizes_keep_their_promise.2.2.2.2.2.2 _ _ _ _ _ _ _ hr List.mem_cons_self (by decide)
        ⟨by decide, fun e he => ?_⟩ ha⟩
    simp only [Heap.put, List.filter_nil, List.nil_append, List.mem_singleton] at he
    subst he
    decide

end BlockArena
