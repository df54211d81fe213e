import BlockArena.Proofs.Isolation.Blocks

/-! # A call on a block storage leaves the other allocations alone

In a well-formed block storage every entry spans the blocks of its run, and the table keeps the
runs of distinct handles apart, so the entries of distinct handles hold disjoint bytes
(`BlockStore.WellFormed.spans_apart`). Every call writes past the table only inside the entry
of the handle it serves (module `Isolation.Blocks`), so:

* a call that keeps the client's promise leaves every live handle it does not name with the
  entry it had and the bytes that entry held, whether the call answers or fails, and a
  compaction carries every entry, with its size and its bytes, to wherever it moves it
  (`StoreCall.keeps_others`);
* a call that keeps the client's promise and fails changes nothing (`StoreCall.fails_unchanged`).

Both hold on every well-formed store while handle numbers are left, so on every store that a
run of calls keeping the client's promise reaches from `create`.
-/

set_option autoImplicit false

namespace BlockArena

/-- Runs of blocks that lie apart hold runs of bytes that lie apart: a run ending before block
    `s₂` ends, in bytes, before block `s₂` starts. -/
theorem span_le_of_le {M B s₁ c₁ s₂ : Int} (hB : 0 ≤ B) (h : s₁ + c₁ ≤ s₂) :
    (M + s₁) * B + c₁ * B ≤ (M + s₂) * B := by
  have hle := Int.mul_le_mul_of_nonneg_right (show M + s₁ + c₁ ≤ M + s₂ by omega) hB
  rwa [Int.add_mul (M + s₁)] at hle

/-! ## The live runs of a tracked arena hold disjoint bytes -/

namespace Tracks

variable {a : Arena} {live : List Extent} (ht : Tracks a live)
include ht

theorem addr_toInt {x : Extent} (hx : x ∈ live) :
    (x.addr a).toInt = (a.managementBlocks.toInt + x.start) * a.blockSize.toInt := by
  have g := ht.geometry
  obtain ⟨hpos, -, hend⟩ := ht.inside x hx
  exact g.blockOffset_ofNat (by omega)

theorem run_bounds {x : Extent} (hx : x ∈ live) :
    (a.tableLength : Int) ≤ (x.addr a).toInt ∧
      (x.addr a).toInt + x.count * a.blockSize.toInt ≤ a.bytes.size := by
  have g := ht.geometry
  obtain ⟨hpos, -, hend⟩ := ht.inside x hx
  have hb := g.block_bounds (t := x.start) (c := x.count) (by omega) hend
  have := g.bytes_size
  exact ⟨hb.1, by unfold Extent.addr; omega⟩

/-- Live runs that lie apart hold bytes that lie apart. -/
theorem spans_apart {x y : Extent} (hx : x ∈ live) (hy : y ∈ live) (hap : x.Apart y) :
    (x.addr a).toInt + x.count * a.blockSize.toInt ≤ (y.addr a).toInt ∨
      (y.addr a).toInt + y.count * a.blockSize.toInt ≤ (x.addr a).toInt := by
  have hB := ht.geometry.blockSize_pos.le
  rw [ht.addr_toInt hx, ht.addr_toInt hy]
  rcases hap with h | h
  · exact .inl (span_le_of_le hB (by omega))
  · exact .inr (span_le_of_le hB (by omega))

end Tracks

namespace BlockStore

/-- The bytes an entry holds, as the store reads them. -/
def entryBytes (s : BlockStore) (e : BlockEntry) : ByteArray :=
  s.space.bytes e.offset.toInt e.size.toNatClampNeg

@[simp] theorem entryBytes_withEpoch (s : BlockStore) (epoch : UInt64) (e : BlockEntry) :
    ({ s with epoch := epoch } : BlockStore).entryBytes e = s.entryBytes e := rfl

/-! ## The entries hold disjoint runs of bytes -/

section Geometry

variable {s : BlockStore} (hw : s.WellFormed)
include hw

theorem WellFormed.span_eq {h : UInt64} {e : BlockEntry} (hmem : (h, e) ∈ s.entries) :
    e.offset.toInt = ((s.arena.runAt e.offset e.size).addr s.arena).toInt ∧
      e.size.toInt = (s.arena.runAt e.offset e.size).count * s.arena.blockSize.toInt := by
  have hp := hw.placed _ hmem
  obtain ⟨-, hcount, -⟩ := hw.run_inside hmem
  exact ⟨by rw [hp.offset_eq], by rw [hp.size_eq, hcount]⟩

/-- The entries of distinct live handles hold runs of bytes that lie apart. -/
theorem WellFormed.spans_apart {h₁ h₂ : UInt64} {e₁ e₂ : BlockEntry}
    (hm₁ : (h₁, e₁) ∈ s.entries) (hm₂ : (h₂, e₂) ∈ s.entries) (hne : h₁ ≠ h₂) :
    e₁.offset.toInt + e₁.size.toInt ≤ e₂.offset.toInt ∨
      e₂.offset.toInt + e₂.size.toInt ≤ e₁.offset.toInt := by
  have hpw : s.entries.Pairwise fun a b =>
      (s.arena.runAt a.2.offset a.2.size).Apart (s.arena.runAt b.2.offset b.2.size) :=
    List.pairwise_map.1 hw.tracks.apart
  have : Std.Symm fun a b : UInt64 × BlockEntry =>
      (s.arena.runAt a.2.offset a.2.size).Apart (s.arena.runAt b.2.offset b.2.size) :=
    ⟨fun _ _ hab => hab.symm⟩
  have hap := hpw.forall hm₁ hm₂ fun heq => hne (congrArg Prod.fst heq)
  obtain ⟨ho₁, hs₁⟩ := hw.span_eq hm₁
  obtain ⟨ho₂, hs₂⟩ := hw.span_eq hm₂
  rw [ho₁, hs₁, ho₂, hs₂]
  exact hw.tracks.spans_apart (mem_liveRuns hm₁) (mem_liveRuns hm₂) hap

/-- A run of another store, of the size of a live entry and inside that store's buffer, holds
    the entry's bytes when it agrees with them byte by byte. -/
theorem WellFormed.entryBytes_congr {s' : BlockStore} {h : UInt64} {e e' : BlockEntry}
    (hmem : (h, e) ∈ s.entries) (hsize : e'.size = e.size) (h0 : 0 ≤ e'.offset.toInt)
    (hend : e'.offset.toInt + e.size.toInt ≤ s'.arena.bytes.size)
    (hbyte : ∀ i : Nat, (i : Int) < e.size.toInt →
      Buffer.byteAt s'.arena.bytes (e'.offset.toInt + i).toNat =
        Buffer.byteAt s.arena.bytes (e.offset.toInt + i).toNat) :
    s'.entryBytes e' = s.entryBytes e := by
  obtain ⟨htab, hend₀⟩ := hw.entry_bounds hmem
  have hn : (e.size.toNatClampNeg : Int) = e.size.toInt := by
    rw [← Int64.toNat_toInt]
    have := hw.size_nonneg_of_mem hmem
    omega
  have hbuf := hw.geometry.bytes_size
  unfold entryBytes
  rw [hsize]
  refine Space.bytes_congr (by omega) ?_ h0 ?_ fun i hi => hbyte i (by omega)
  · show _ ≤ (s.arena.bytes.size : Int)
    omega
  · show _ ≤ (s'.arena.bytes.size : Int)
    omega

theorem WellFormed.entryBytes_eq {W : Int → Prop} {s' : BlockStore} {h : UInt64}
    {e : BlockEntry} (hmem : (h, e) ∈ s.entries) (hsp : Spares W s s')
    (hW : ∀ j, W j → ¬Span e.offset.toInt e.size.toInt j) : s'.entryBytes e = s.entryBytes e := by
  obtain ⟨htab, hend⟩ := hw.entry_bounds hmem
  have hbuf := hw.geometry.bytes_size
  have hlen : (s'.arena.bytes.size : Int) = s.arena.bytes.size := by rw [hsp.size_eq]
  refine hw.entryBytes_congr hmem rfl (by omega) (by omega) fun i hi => ?_
  -- every byte of the entry lies past the table, outside what the store wrote
  refine hsp.byteAt_eq _ (by omega) fun hw' => hW _ hw' ?_
  simp only [Span]
  omega

end Geometry

/-! ## One call, one other handle -/

section Others

variable {s s' : BlockStore} {k : UInt64} {e : BlockEntry}

theorem WellFormed.ne_nextHandle (hw : s.WellFormed) (hl : s.entries.lookup k = some e) :
    k ≠ s.nextHandle := fun heq => by
  have hlt := hw.handle_lt (k, e) (mem_of_lookup hl)
  rw [heq] at hlt
  exact lt_irrefl _ hlt

theorem WellFormed.ne_dangling (hw : s.WellFormed) (hl : s.entries.lookup k = some e) :
    k ≠ danglingHandle := fun h0 => by
  have hpos : 0 < k.toNat := hw.handle_pos _ (mem_of_lookup hl)
  rw [h0] at hpos
  exact absurd hpos (by decide)

/-- A step that keeps the entry of every handle but `h`, and writes past the table only inside
    the entry `h` has in the well-formed store it leaves, leaves every other live handle with its
    entry and the entry's bytes. -/
theorem WellFormed.keeps_entry (hw : s.WellFormed) (hw' : s'.WellFormed) {h : UInt64}
    {e' : BlockEntry} (hl : s.entries.lookup k = some e) (hk : k ≠ h) (hoth : Others h s s')
    (hmem' : (h, e') ∈ s'.entries) (hsp : Spares (Span e'.offset.toInt e'.size.toInt) s s') :
    s'.entries.lookup k = some e ∧ s'.entryBytes e = s.entryBytes e := by
  have hl' : s'.entries.lookup k = some e := (hoth k hk).trans hl
  refine ⟨hl', hw.entryBytes_eq (mem_of_lookup hl) hsp fun j hj hspan => ?_⟩
  -- in the store left, the entry of `k` lies apart from the entry of `h`
  rcases hw'.spans_apart (mem_of_lookup hl') hmem' hk with hb | hb <;>
    simp only [Span] at hj hspan <;> omega

/-- A step that keeps the entry of every handle but `h` and writes nothing past the table leaves
    every other live handle with its entry and the entry's bytes. -/
theorem WellFormed.keeps_entry_of_none (hw : s.WellFormed) {h : UInt64}
    (hl : s.entries.lookup k = some e) (hk : k ≠ h) (hoth : Others h s s')
    (hsp : Spares (fun _ => False) s s') :
    s'.entries.lookup k = some e ∧ s'.entryBytes e = s.entryBytes e :=
  ⟨(hoth k hk).trans hl, hw.entryBytes_eq (mem_of_lookup hl) hsp fun _ hj => hj.elim⟩

theorem WellFormed.allocate_keeps (hw : s.WellFormed) {l : Layout} {a : UInt64 × Int64}
    (hl : s.entries.lookup k = some e) (hrun : (allocate l).run s = .ok a s') :
    s'.entries.lookup k = some e ∧ s'.entryBytes e = s.entryBytes e := by
  obtain ⟨h₁, -, hoth⟩ := allocate_run_ok hrun
  exact hw.keeps_entry_of_none hl (h₁ ▸ hw.ne_nextHandle hl) hoth (allocate_spares l s a s' hrun)

theorem WellFormed.allocateZeroed_keeps (hw : s.WellFormed) (hw' : s'.WellFormed) {l : Layout}
    {a : UInt64 × Int64} (hl : s.entries.lookup k = some e)
    (hrun : (Storage.allocateZeroed l : Act BlockStore (UInt64 × Int64)).run s = .ok a s') :
    s'.entries.lookup k = some e ∧ s'.entryBytes e = s.entryBytes e := by
  obtain ⟨h₁, -, hoth⟩ := allocateZeroed_run_ok hrun
  have hne : s.nextHandle ≠ danglingHandle := fun h0 => by
    have hpos := hw.nextHandle_pos
    rw [h0] at hpos
    exact absurd hpos (by decide)
  obtain ⟨e', hl', -, hsp⟩ := allocateZeroed_lands hne hrun
  exact hw.keeps_entry hw' hl (h₁ ▸ hw.ne_nextHandle hl) hoth (mem_of_lookup hl') hsp

theorem WellFormed.deallocate_keeps (hw : s.WellFormed) {h : UInt64} {l : Layout} {u : Unit}
    (hl : s.entries.lookup k = some e) (hk : k ≠ h)
    (hrun : (deallocate h l).run s = .ok u s') :
    s'.entries.lookup k = some e ∧ s'.entryBytes e = s.entryBytes e :=
  hw.keeps_entry_of_none hl hk (BlockStore.deallocate_keeps h l s u s' hrun)
    (deallocate_spares h l s u s' hrun)

theorem spares_withSpace {s₁ : BlockStore} (hw₁ : s₁.WellFormed) {m : Space}
    (hw₂ : (s₁.withSpace m).WellFormed) {e' : BlockEntry}
    (hm : ∀ k : Nat, ((k : Int) < e'.offset.toInt ∨ e'.offset.toInt + e'.size.toInt ≤ k) →
      Buffer.byteAt m.buffer k = Buffer.byteAt s₁.arena.bytes k) :
    Spares (Span e'.offset.toInt e'.size.toInt) s₁ (s₁.withSpace m) where
  tableLength_eq := rfl
  size_eq := by
    have h₁ : (s₁.arena.bytes.size : Int) = s₁.arena.bufferSize.toInt := hw₁.geometry.bytes_size
    have h₂ : (m.buffer.size : Int) = s₁.arena.bufferSize.toInt := hw₂.geometry.bytes_size
    show m.buffer.size = s₁.arena.bytes.size
    omega
  byteAt_eq k _ hk := hm k (by simp only [Span, not_and_or, not_le, not_lt] at hk; omega)

theorem WellFormed.resizeWith_keeps (hw : s.WellFormed) {form : ResizeForm} {h : UInt64}
    {old new : Layout} {eh : BlockEntry} {a : UInt64 × Int64}
    (hlh : s.entries.lookup h = some eh) (hnew : s.arena.Sized new)
    (hr : (form.kept old new).Within eh.size.toInt new.size.toInt)
    (hl : s.entries.lookup k = some e) (hk : k ≠ h)
    (hrun : (Storage.resizeWith form h old new : Act BlockStore (UInt64 × Int64)).run s =
      .ok a s') :
    s'.entries.lookup k = some e ∧ s'.entryBytes e = s.entryBytes e := by
  obtain ⟨-, -, hoth⟩ := resizeWith_settles form h old new s a s' hrun
  obtain ⟨s₀, hrun₀, -⟩ := Act.resizeBy_run_ok (R := SameEntries)
    (fun h => .of_reads (resolve_inert h).1) sameEntries_withSpace hrun
  rcases @WellFormed.resize_cases s hw form.grow h old new (form.kept old new) eh hlh hnew hr with
    ⟨f, -, hf⟩ | ⟨n, s₁, hrun₁, hres⟩
  · rw [hf] at hrun₀
    cases hrun₀
  obtain ⟨e', hl', hn⟩ := hres.entry
  obtain ⟨-, hdst, hsize, -, hend⟩ := hr
  have hholds := hres.holds
  have hn' : e'.size.toInt = n.toInt := by rw [hn]
  have hsum : ((form.kept old new).dst + (form.kept old new).size).toInt =
      (form.kept old new).dst.toInt + (form.kept old new).size.toInt := by
    have hmax := hnew.2
    have hbs := hw.geometry.blockSize_pos
    rw [Word.maxInt_toInt] at hmax
    exact Word.toInt_add_of_fits ⟨by omega, by omega⟩
  obtain ⟨m, hrunm, hw₂, hm⟩ := WellFormed.resizeWith_of_resize hrun₁ hres.wellFormed hl' hn
    hdst hsize (by omega) hsum
  rw [hrunm] at hrun
  cases hrun
  obtain ⟨e'', hl'', hsp₁⟩ := resize_lands form.grow h old new (form.kept old new) s _ s₁ hrun₁
  rw [hl'] at hl''
  cases hl''
  have hsp : Spares (Span e'.offset.toInt e'.size.toInt) s (s₁.withSpace m) :=
    trans_of (Spares _) (hsp₁.mono fun j hj => by simp only [Span] at hj ⊢; omega)
      (spares_withSpace hres.wellFormed hw₂ fun j hj => hm j (by omega))
  exact hw.keeps_entry hw₂ hl hk hoth (mem_of_lookup hl') hsp

end Others

/-! ## Compaction carries every entry -/

/-- `s'` holds every live handle of `s` with an entry of the same size, which holds the bytes
    the handle's entry held in `s`. -/
def Carries (s s' : BlockStore) : Prop :=
  ∀ he ∈ s.entries, ∃ e', (he.1, e') ∈ s'.entries ∧ e'.size = he.2.size ∧
    s'.entryBytes e' = s.entryBytes he.2

theorem Carries.refl (s : BlockStore) : Carries s s := fun he hm => ⟨he.2, hm, rfl, rfl⟩

theorem Carries.trans {s₁ s₂ s₃ : BlockStore} (h₁ : Carries s₁ s₂) (h₂ : Carries s₂ s₃) :
    Carries s₁ s₃ := fun he hm => by
  obtain ⟨e₂, hm₂, hs₂, hb₂⟩ := h₁ he hm
  obtain ⟨e₃, hm₃, hs₃, hb₃⟩ := h₂ (he.1, e₂) hm₂
  exact ⟨e₃, hm₃, hs₃.trans hs₂, hb₃.trans hb₂⟩

/-- One step of compaction on a live entry `(h, e)` leaves a well-formed store that keeps every
    other entry and carries every entry: the entry it moves takes its bytes along, and the first
    fit it writes lies apart from every other entry. -/
theorem WellFormed.compactOne_carries {s s' : BlockStore} (hw : s.WellFormed) {h : UInt64}
    {e : BlockEntry} (hmem : (h, e) ∈ s.entries) {c c' : Compaction}
    (hrun : (compactOne c (h, e)).run s = .ok c' s') :
    s'.WellFormed ∧ (∀ he ∈ s.entries, he.1 ≠ h → he ∈ s'.entries) ∧ Carries s s' := by
  obtain ⟨c'', s'', hrun', hw', -, hkeep, e', hmem', -, hsize'⟩ := hw.compactOne_step hmem c
  rw [hrun] at hrun'
  cases hrun'
  refine ⟨hw', hkeep, fun ⟨k, ek⟩ hk => ?_⟩
  rcases compactOne_moves hrun with ⟨hent, hsp⟩ | ⟨off, size, hent, hsp, hcontent⟩
  · -- nothing moved: every entry keeps its place and its bytes
    exact ⟨ek, by rw [hent]; exact hk, rfl, hw.entryBytes_eq hk hsp fun _ hj => hj.elim⟩
  have hlook : s'.entries.lookup h = some ⟨off, e.layout, size⟩ := by
    rw [hent, lookup_put, if_pos rfl]
  have he' : e' = ⟨off, e.layout, size⟩ := by
    rw [lookup_of_mem hw'.keys_nodup hmem'] at hlook
    exact Option.some.inj hlook
  subst he'
  dsimp only at hsize'
  subst hsize'
  have hmin : min e.size e.size = e.size := ite_self _
  rw [hmin] at hsp hcontent
  by_cases hkh : k = h
  · -- the moved entry holds the bytes it held before
    subst hkh
    have hek : ek = e := by
      have := lookup_of_mem hw.keys_nodup hk
      rw [lookup_of_mem hw.keys_nodup hmem] at this
      exact (Option.some.inj this).symm
    subst hek
    obtain ⟨htab', hend'⟩ := hw'.entry_bounds hmem'
    obtain ⟨htab, hend⟩ := hw.entry_bounds hmem
    dsimp only at htab' hend' ⊢
    have hbuf := hw.geometry.bytes_size
    have hbuf' := hw'.geometry.bytes_size
    have hlen : (s'.arena.bytes.size : Int) = s.arena.bytes.size := by rw [hsp.size_eq]
    refine ⟨_, hmem', rfl, hw.entryBytes_congr hmem rfl (by dsimp only; omega)
      (by dsimp only; omega) ?_⟩
    exact hcontent (by omega) (by omega) htab (by omega)
  · -- every other entry stays, apart from the first fit the step wrote
    have hk' := hkeep (k, ek) hk hkh
    refine ⟨ek, hk', rfl, hw.entryBytes_eq hk hsp fun j hj hspan => ?_⟩
    rcases hw'.spans_apart hk' hmem' hkh with hb | hb <;>
      simp only [Span] at hj hb hspan <;> omega

theorem WellFormed.foldCompact_carries : ∀ (todo : List (UInt64 × BlockEntry)) (c : Compaction)
    {s s' : BlockStore} {c' : Compaction}, s.WellFormed → (∀ he ∈ todo, he ∈ s.entries) →
    (todo.map Prod.fst).Nodup → (todo.foldlM compactOne c).run s = .ok c' s' → Carries s s'
  | [], c, s, s', c', _, _, _, hrun => by
    cases hrun
    exact Carries.refl s
  | (h, e) :: todo, c, s, s', c', hw, hin, hnd, hrun => by
    rw [List.foldlM_cons] at hrun
    obtain ⟨c₁, s₁, hrun₁, hrest⟩ := Act.run_bind_eq_ok hrun
    obtain ⟨hw₁, hkeep, hcar⟩ := hw.compactOne_carries (hin _ List.mem_cons_self) hrun₁
    rw [List.map_cons, List.nodup_cons] at hnd
    -- the rest of the entries are compacted from the store the step leaves
    have hin' := mem_of_keep hkeep (fun he hm => hin he (List.mem_cons_of_mem _ hm)) hnd.1
    exact hcar.trans (foldCompact_carries todo c₁ hw₁ hin' hnd.2 hrest)

theorem WellFormed.compact_carries {s : BlockStore} (hw : s.WellFormed) :
    Carries s (Act.leaves compact s) := by
  obtain ⟨hall, hnd⟩ := hw.byAddress_live
  obtain ⟨c, s', hr, -⟩ := hw.foldCompact (byAddress s) {} hall hnd
  rw [Act.leaves_of_ok (compact_run_of_fold hr)]
  have hcar := hw.foldCompact_carries _ _ hall hnd hr
  exact hcar

end BlockStore

/-! ## Every call, every other handle -/

namespace StoreCall

variable {s : BlockStore} {c : StoreCall}

/-- A call that keeps the client's promise on a well-formed store with handle numbers left, and
    fails, leaves the store as it was. -/
theorem fails_unchanged (hw : s.WellFormed) (hroom : s.nextHandle.toNat + 1 < 2 ^ 64)
    (hc : c.Allowed s) {f : Fault} {s' : BlockStore} (hrun : c.op.act.run s = .error f s') :
    s' = s := by
  rcases refuses_or_answers hw hroom hc with ⟨f', -, hf⟩ | ⟨a, s'', hans⟩
  · rw [hf] at hrun
    cases hrun
    rfl
  · rw [hans] at hrun
    cases hrun

/-- A call that keeps the client's promise on a well-formed store with handle numbers left,
    whether it answers or fails, leaves every live handle it does not name with an entry of the
    same size that holds the same bytes; every call but compaction leaves the very entry. -/
theorem keeps_others (hw : s.WellFormed) (hroom : s.nextHandle.toNat + 1 < 2 ^ 64)
    (hc : c.Allowed s) {k : UInt64} {e : BlockEntry} (hl : s.entries.lookup k = some e)
    (hk : c.handle? ≠ some k) :
    ∃ e', (c.run s).entries.lookup k = some e' ∧ e'.size = e.size ∧
      (c.run s).entryBytes e' = s.entryBytes e ∧ (c ≠ .compact → e' = e) := by
  have hkeep : ∀ {s' : BlockStore}, s'.entries.lookup k = some e ∧
      s'.entryBytes e = s.entryBytes e → ∃ e', s'.entries.lookup k = some e' ∧
        e'.size = e.size ∧ s'.entryBytes e' = s.entryBytes e ∧ (c ≠ .compact → e' = e) :=
    fun ⟨hl', hbytes⟩ => ⟨e, hl', rfl, hbytes, fun _ => rfl⟩
  rcases refuses_or_answers hw hroom hc with ⟨f, -, hf⟩ | ⟨a, s', hans⟩
  · rw [← op_run, Op.run, Act.leaves_of_error hf]
    exact hkeep ⟨hl, rfl⟩
  have hw' : s'.WellFormed := by
    have hf := (hw.step hroom hc).wellFormed
    rwa [← op_run, Op.run, Act.leaves_of_ok hans] at hf
  rw [← op_run, Op.run, Act.leaves_of_ok hans]
  cases c with
  | allocate l => exact hkeep (hw.allocate_keeps hl hans)
  | allocateZeroed l => exact hkeep (hw.allocateZeroed_keeps hw' hl hans)
  | deallocate h l =>
    exact hkeep (hw.deallocate_keeps (l := l) hl (fun heq => hk (by rw [heq]; rfl)) hans)
  | resize form h old new =>
    obtain ⟨eh, hlh, -, hnew, hr⟩ := hc
    exact hkeep (hw.resizeWith_keeps hlh hnew.2 hr hl (fun heq => hk (by rw [heq]; rfl)) hans)
  | compact =>
    -- compaction carries the entry of `k`, wherever it moves it
    have hcar := hw.compact_carries (k, e) (BlockStore.mem_of_lookup hl)
    have hans' : BlockStore.compact.run s = .ok a s' := hans
    rw [Act.leaves_of_ok hans'] at hcar
    obtain ⟨e', hmem', hsize, hbytes⟩ := hcar
    exact ⟨e', BlockStore.lookup_of_mem hw'.keys_nodup hmem', hsize, hbytes,
      fun hne => absurd rfl hne⟩

/-- Through the storage's interface: after a call that keeps the client's promise on a
    well-formed store with handle numbers left, whether it answers or fails, every live handle
    the call does not name resolves to the usable size it had, and the bytes that far past the
    address it resolves to are the bytes read there before; only compaction moves the address. -/
theorem reads_others (hw : s.WellFormed) (hroom : s.nextHandle.toNat + 1 < 2 ^ 64)
    (hc : c.Allowed s) {k : UInt64} (hlive : ∃ e, s.entries.lookup k = some e)
    (hk : c.handle? ≠ some k) {p : Addr} {n : Int64}
    (hp : (BlockStore.resolve k).run s = .ok p s) (hn : (BlockStore.resolveSize k).run s = .ok n s) :
    ∃ p', (BlockStore.resolve k).run (c.run s) = .ok p' (c.run s) ∧
      (BlockStore.resolveSize k).run (c.run s) = .ok n (c.run s) ∧
      Memory.bytesAt (c.run s).space p' 0 n.toNatClampNeg =
        Memory.bytesAt s.space p 0 n.toNatClampNeg ∧
      (c ≠ .compact → p' = p) := by
  obtain ⟨e, hl⟩ := hlive
  have hne := hw.ne_dangling hl
  rw [hw.resolve_run hl] at hp
  cases hp
  rw [BlockStore.resolveSize_run_of_holds ⟨e, hl, rfl⟩ hne] at hn
  cases hn
  obtain ⟨e', hl', hsize, hbytes, hsame⟩ := keeps_others hw hroom hc hl hk
  refine ⟨.offset e'.offset.toInt, BlockStore.resolve_run_of_lookup hne hl', ?_, ?_,
    fun hc' => by rw [hsame hc']⟩
  · rw [← hsize]
    exact BlockStore.resolveSize_run_of_holds ⟨e', hl', rfl⟩ hne
  · unfold BlockStore.entryBytes at hbytes
    rw [hsize] at hbytes
    simp only [Memory.bytesAt, Int.add_zero]
    exact hbytes

end StoreCall

end BlockArena
