import BlockArena.Heap
import BlockArena.Proofs.Rounding

/-! # The heap accounts for its live allocations

The heap serves each request from a fresh buffer that the runtime places, and keeps its live
allocations by the address served. The runtime is not modelled; what the heap relies on is that
a new buffer lies below the top of the address space and apart from the buffers of the live
allocations (`Heap.Apart`). Under that assumption, for every sequence of calls:

* a request is refused, with an allocation fault and nothing changed, exactly when its layout
  fails its check or its size (at least one byte) plus its padding exceeds the limit
  (`Heap.alloc_refused_iff`);
* otherwise it is served at the first address of the buffer that the alignment divides, with the
  whole allocation inside the buffer of size plus padding bytes (`Heap.alignedIn_spec`,
  `Heap.grant_of_fits`);
* the table holds exactly the allocations that the answers of the calls leave live, under
  distinct addresses, and counts their bytes (`Heap.Keeps`, kept by every call:
  `Heap.Reaches.keeps`), so ownership and the statistics read the live allocations, and freeing
  an address that is not live aborts with nothing changed (`heap_accounts_for_live_allocations`).
-/

set_option autoImplicit false

namespace BlockArena

namespace Heap

/-! ## Sizes on words -/

theorem limit_toInt : limit.toInt = 1099511627776 := rfl

/-- The padding of a power-of-two alignment is `align - 1`, also for `2^63`, whose signed word
    is negative and wraps back when one is taken off. -/
theorem padding_toInt {l : Layout} (h : Word.isPow2 l.align = true) :
    (padding l).toInt = l.align.toNat - 1 := by
  obtain ⟨k, hk, ha⟩ := Word.isPow2_toNat h
  have hA : 1 ≤ l.align.toNat := ha ▸ Nat.one_le_two_pow
  have hA' : l.align.toNat ≤ 2 ^ 63 := ha ▸ Nat.pow_le_pow_right (by omega) (by omega)
  rw [padding, Int64.toInt_sub, Int64.toInt_one, ← Int64.toInt_toBitVec,
    UInt64.toBitVec_toInt64, BitVec.toInt_eq_toNat_cond, Int.bmod_def]
  simp only [UInt64.toNat_toBitVec]
  split <;> split <;> omega

theorem served_toInt {l : Layout} (h : l.check = .ok ()) :
    (served l).toInt = max l.size.toInt 1 := by
  obtain ⟨hsize, -, -⟩ := (Layout.check_eq_ok_iff l).1 h
  unfold served
  split
  · rename_i hz
    rw [hz, Int64.toInt_zero]
    rfl
  · rename_i hz
    have : l.size.toInt ≠ 0 := fun h0 => hz (Int64.toInt_inj.1 (by simpa using h0))
    rw [Int.max_eq_left (by omega)]

/-- The limit check, read on integers: the size served plus the padding is at most 1 TiB. The
    difference `limit - padding` does not wrap for any power-of-two alignment. -/
theorem over_limit_iff {l : Layout} (h : l.check = .ok ()) :
    limit - padding l < served l ↔ limit.toInt - (l.align.toNat - 1) < max l.size.toInt 1 := by
  obtain ⟨-, hpow, -⟩ := (Layout.check_eq_ok_iff l).1 h
  have hpad := padding_toInt hpow
  have hA' : l.align.toNat ≤ 2 ^ 63 := by
    obtain ⟨k, hk, ha⟩ := Word.isPow2_toNat hpow
    exact ha ▸ Nat.pow_le_pow_right (by omega) (by omega)
  rw [Int64.lt_iff_toInt_lt, Word.toInt_sub_of_fits (by rw [hpad, limit_toInt]; constructor <;> omega),
    hpad, served_toInt h]

/-- The buffer of a layout that fits under the limit holds its size served and its padding
    exactly: the sum does not wrap. -/
theorem length_toInt {l : Layout} (h : l.check = .ok ()) (hfit : ¬limit - padding l < served l) :
    (served l + padding l).toInt = max l.size.toInt 1 + (l.align.toNat - 1) := by
  obtain ⟨-, hpow, -⟩ := (Layout.check_eq_ok_iff l).1 h
  have hpad := padding_toInt hpow
  rw [over_limit_iff h, limit_toInt] at hfit
  rw [Word.toInt_add_of_fits (by rw [hpad, served_toInt h]; constructor <;> omega), hpad,
    served_toInt h]

/-! ## The address served -/

/-- The address served from a buffer at `base` is the first multiple of the alignment at or
    above `base`, at most `align - 1` above it, as long as those bytes do not wrap around the
    address space. -/
theorem alignedIn_spec (base : UInt64) {a : UInt64} (ha : Word.isPow2 a = true)
    (hroom : base.toNat + (a.toNat - 1) < 2 ^ 64) :
    base.toNat ≤ (alignedIn base a).toNat ∧
      (alignedIn base a).toNat ≤ base.toNat + (a.toNat - 1) ∧
      a.toNat ∣ (alignedIn base a).toNat := by
  obtain ⟨k, hk, hak⟩ := Word.isPow2_toNat ha
  have hA : 1 ≤ a.toNat := hak ▸ Nat.one_le_two_pow
  have hshift := Word.alignUp_sub_toNat base.toInt64 hak hk
  have hbits : base.toInt64.toBitVec.toNat = base.toNat := rfl
  rw [hbits, Nat.mod_eq_of_lt (by omega : base.toNat + a.toNat - 1 < 18446744073709551616)]
    at hshift
  have hrlt : (base.toNat + a.toNat - 1) % a.toNat < a.toNat := Nat.mod_lt _ (by omega)
  have hval : (alignedIn base a).toNat =
      base.toNat + (a.toNat - 1 - (base.toNat + a.toNat - 1) % a.toNat) := by
    have hsh : (Word.alignUp base.toInt64 a - base.toInt64).toUInt64.toNat =
        a.toNat - 1 - (base.toNat + a.toNat - 1) % a.toNat := hshift
    unfold alignedIn
    rw [UInt64.toNat_add, hsh]
    exact Nat.mod_eq_of_lt (by omega)
  refine ⟨by omega, by omega, ?_⟩
  -- `base + a - 1` less its remainder is a multiple of `a`
  have hsplit := Nat.div_add_mod (base.toNat + a.toNat - 1) a.toNat
  exact ⟨(base.toNat + a.toNat - 1) / a.toNat, by omega⟩

/-- What serving a layout at `p` from a buffer of `length` bytes at `base` promises: the address
    is a multiple of the alignment, the size served is the size but at least one, the buffer
    holds that size and the padding, and the allocation lies inside the buffer. -/
structure Grant (l : Layout) (base : UInt64) (length : Int64) (p : UInt64) (size : Int64) :
    Prop where
  aligned : l.align.toNat ∣ p.toNat
  size_eq : size.toInt = max l.size.toInt 1
  length_eq : length.toInt = size.toInt + (l.align.toNat - 1)
  start_le : base.toNat ≤ p.toNat
  end_le : p.toNat + size.toInt.toNat ≤ base.toNat + length.toInt.toNat

/-- A layout that passes its check and fits under the limit, served from a buffer placed below
    the top of the address space, gets what `Grant` says. -/
theorem grant_of_fits {l : Layout} (hc : l.check = .ok ()) (hlim : ¬limit - padding l < served l)
    (base : UInt64) (hroom : base.toNat + (served l + padding l).toInt.toNat ≤ 2 ^ 64) :
    Grant l base (served l + padding l) (alignedIn base l.align) (served l) := by
  obtain ⟨-, hpow, -⟩ := (Layout.check_eq_ok_iff l).1 hc
  obtain ⟨k, -, hak⟩ := Word.isPow2_toNat hpow
  have hA : 1 ≤ l.align.toNat := hak ▸ Nat.one_le_two_pow
  have hlen := length_toInt hc hlim
  have hsize := served_toInt hc
  rw [hlen] at hroom
  obtain ⟨hlo, hhi, hdvd⟩ := alignedIn_spec base hpow (by omega)
  refine ⟨hdvd, hsize, by rw [hlen, hsize], hlo, ?_⟩
  rw [hlen, hsize]
  omega

/-! ## One call -/

section Calls

variable (place : Placement) (h : Heap)

theorem alloc_of_invalid {l : Layout} {f : Fault} (hc : l.check = .error f) :
    (alloc place l).run h = .error (.invalidLayout f) h := by
  simp only [alloc, hc]
  rfl

theorem alloc_of_over_limit {l : Layout} (hc : l.check = .ok ())
    (hlim : limit - padding l < served l) :
    (alloc place l).run h = .error (.heapLimit l) h := by
  simp only [alloc, hc, hlim, if_true]
  rfl

/-- A layout that passes its check and fits under the limit is served from a buffer of its size
    served plus its padding, at the address `alignedIn` picks in it. -/
theorem alloc_of_fits {l : Layout} (hc : l.check = .ok ())
    (hlim : ¬limit - padding l < served l) :
    (alloc place l).run h =
      .ok (alignedIn (place (served l + padding l)) l.align, served l)
        { h with
          live := put h.live (alignedIn (place (served l + padding l)) l.align)
            ⟨place (served l + padding l), served l + padding l, served l⟩,
          allocationBytes := h.allocationBytes + served l } := by
  simp only [alloc, hc, hlim, if_false]
  rfl

theorem fits_of_alloc_ok {l : Layout} {r : UInt64 × Int64} {h' : Heap}
    (hr : (alloc place l).run h = .ok r h') :
    l.check = .ok () ∧ ¬limit - padding l < served l := by
  cases hc : l.check with
  | error f =>
    rw [alloc_of_invalid place h hc] at hr
    cases hr
  | ok u =>
    cases u
    refine ⟨rfl, fun hlim => ?_⟩
    rw [alloc_of_over_limit place h hc hlim] at hr
    cases hr

theorem dealloc_of_find_none {ptr : UInt64} (hf : h.live.find? (fun e => e.1 == ptr) = none) :
    (dealloc ptr).run h = .error .heapForeign h := by
  rw [dealloc, Act.run_bind_ok (Act.run_get h)]
  simp only [hf]
  rfl

theorem dealloc_of_not_owns {ptr : UInt64} (ho : h.owns ptr = false) :
    (dealloc ptr).run h = .error .heapForeign h := by
  apply dealloc_of_find_none
  rw [List.find?_eq_none]
  intro e he
  simpa [owns] using (List.any_eq_false.1 ho) e he

theorem dealloc_of_find {ptr : UInt64} {e : UInt64 × HeapBuffer}
    (hf : h.live.find? (fun e => e.1 == ptr) = some e) :
    (dealloc ptr).run h =
      .ok () { h with live := h.live.filter (fun e => e.1 != ptr),
                      allocationBytes := h.allocationBytes - e.2.size } := by
  rw [dealloc, Act.run_bind_ok (Act.run_get h)]
  simp only [hf]
  rfl

theorem alloc_error_state {l : Layout} {f : Fault} {h' : Heap}
    (hr : (alloc place l).run h = .error f h') : h' = h := by
  cases hc : l.check with
  | error g =>
    rw [alloc_of_invalid place h hc] at hr
    cases hr
    rfl
  | ok u =>
    cases u
    by_cases hlim : limit - padding l < served l
    · rw [alloc_of_over_limit place h hc hlim] at hr
      cases hr
      rfl
    · rw [alloc_of_fits place h hc hlim] at hr
      cases hr

theorem dealloc_error_state {ptr : UInt64} {f : Fault} {h' : Heap}
    (hr : (dealloc ptr).run h = .error f h') : h' = h := by
  cases hf : h.live.find? (fun e => e.1 == ptr) with
  | none =>
    rw [dealloc_of_find_none h hf] at hr
    cases hr
    rfl
  | some e =>
    rw [dealloc_of_find h hf] at hr
    cases hr

end Calls

/-! ## The live allocations -/

/-- A buffer of `n` bytes at `base` lies below the top of the address space and apart from the
    buffer of every live allocation. This is what the heap needs of the runtime. -/
def Apart (h : Heap) (base : UInt64) (n : Int64) : Prop :=
  base.toNat + n.toInt.toNat ≤ 2 ^ 64 ∧
    ∀ e ∈ h.live, base.toNat + n.toInt.toNat ≤ e.2.base.toNat ∨
      e.2.base.toNat + e.2.length.toInt.toNat ≤ base.toNat

/-- The heap holds the allocations `L` (address and size served, oldest first): its table holds
    exactly those, under distinct addresses, it counts their bytes, and each address lies in its
    own buffer. -/
structure Keeps (h : Heap) (L : List (UInt64 × Int64)) : Prop where
  /-- The table, read as addresses and sizes, is `L`. -/
  entries : h.live.map (fun e => (e.1, e.2.size)) = L
  /-- No address is live twice. -/
  nodup : (L.map Prod.fst).Nodup
  /-- The byte count is the wrapping sum of the live sizes. -/
  bytes : h.allocationBytes = (L.map Prod.snd).sum
  /-- Each live address lies in its own buffer. -/
  inside : ∀ e ∈ h.live,
    e.2.base.toNat ≤ e.1.toNat ∧ e.1.toNat < e.2.base.toNat + e.2.length.toInt.toNat

theorem Keeps.new : Keeps {} [] where
  entries := rfl
  nodup := List.nodup_nil
  bytes := rfl
  inside _ he := absurd he List.not_mem_nil

theorem Keeps.owns_iff {h : Heap} {L : List (UInt64 × Int64)} (hk : h.Keeps L) (ptr : UInt64) :
    h.owns ptr = true ↔ ptr ∈ L.map Prod.fst := by
  rw [← hk.entries, List.map_map]
  simp [owns, Function.comp_def]

/-- Taking out the entries of one address of a list with distinct addresses takes out one size
    from the sum. -/
theorem sum_filter_ne {L : List (UInt64 × Int64)} (hnd : (L.map Prod.fst).Nodup) {ptr : UInt64}
    {size : Int64} (hmem : (ptr, size) ∈ L) :
    (L.map Prod.snd).sum = ((L.filter (fun e => e.1 != ptr)).map Prod.snd).sum + size := by
  induction L with
  | nil => exact absurd hmem List.not_mem_nil
  | cons x rest ih =>
    rw [List.map_cons, List.nodup_cons] at hnd
    by_cases hx : x.1 = ptr
    · -- the head is the entry: no other entry has its address
      have hrest : rest.filter (fun e => e.1 != ptr) = rest := by
        rw [List.filter_eq_self]
        intro e he
        have : e.1 ≠ ptr := fun heq => hnd.1 (hx ▸ heq ▸ List.mem_map_of_mem he)
        simpa using this
      have hsize : x.2 = size := by
        rcases List.mem_cons.1 hmem with heq | hin
        · rw [← heq]
        · exact absurd (hx ▸ (List.mem_map_of_mem hin : (ptr, size).1 ∈ rest.map Prod.fst)) hnd.1
      simp only [List.filter_cons, hx, bne_self_eq_false, Bool.false_eq_true, ite_false, hrest,
        List.map_cons, List.sum_cons, hsize]
      exact Int64.add_comm _ _
    · have hin : (ptr, size) ∈ rest := by
        rcases List.mem_cons.1 hmem with heq | hin
        · exact absurd (by rw [← heq]) hx
        · exact hin
      have hne : (x.1 != ptr) = true := by simpa using hx
      simp only [List.filter_cons, hne, ite_true, List.map_cons, List.sum_cons, ih hnd.2 hin,
        Int64.add_assoc]

/-- Serving a layout from a buffer that lies apart from the live ones adds the new allocation
    at the end of the table: its address lies in the new buffer, so it is not live yet. -/
theorem Keeps.alloc {h : Heap} {L : List (UInt64 × Int64)} (hk : h.Keeps L) {place : Placement}
    {l : Layout} (hap : h.Apart (place (served l + padding l)) (served l + padding l))
    {p : UInt64} {size : Int64} {h' : Heap} (hr : (Heap.alloc place l).run h = .ok (p, size) h') :
    h'.Keeps (L ++ [(p, size)]) := by
  obtain ⟨hc, hlim⟩ := fits_of_alloc_ok place h hr
  rw [alloc_of_fits place h hc hlim] at hr
  cases hr
  set base := place (served l + padding l) with hbase
  obtain ⟨hroom, hapart⟩ := hap
  have hg := grant_of_fits hc hlim base hroom
  have hsize : 0 < (served l).toInt.toNat := by
    rw [hg.size_eq]
    omega
  have hlo := hg.start_le
  have hhi := hg.end_le
  set q := alignedIn base l.align with hq
  -- the new address is in the new buffer, so no live address is it
  have hfresh : ∀ e ∈ h.live, e.1 ≠ q := by
    intro e he heq
    have hin := hk.inside e he
    rw [heq] at hin
    rcases hapart e he with hbelow | habove <;> omega
  have hput : put h.live q ⟨base, served l + padding l, served l⟩ =
      h.live ++ [(q, ⟨base, served l + padding l, served l⟩)] := by
    rw [put, List.filter_eq_self.2 fun e he => by simpa using hfresh e he]
  have hnot : q ∉ L.map Prod.fst := by
    intro hin
    rw [← hk.owns_iff q] at hin
    obtain ⟨e, he, heq⟩ := List.any_eq_true.1 hin
    exact hfresh e he (by simpa using heq)
  refine ⟨?_, ?_, ?_, ?_⟩
  · simp only [hput, List.map_append, hk.entries, List.map_cons, List.map_nil]
  · rw [List.map_append, List.map_singleton, ← List.concat_eq_append]
    exact hk.nodup.concat hnot
  · simp only [hk.bytes, List.map_append, List.map_singleton, List.sum_append, List.sum_singleton]
  · intro e he
    rw [hput, List.mem_append, List.mem_singleton] at he
    rcases he with he | rfl
    · exact hk.inside e he
    · exact ⟨hlo, by dsimp only; omega⟩

/-- Freeing a live address takes its allocation out of the table and its bytes out of the
    count. -/
theorem Keeps.dealloc {h : Heap} {L : List (UInt64 × Int64)} (hk : h.Keeps L) {ptr : UInt64}
    {h' : Heap} (hr : (Heap.dealloc ptr).run h = .ok () h') :
    h'.Keeps (L.filter fun e => e.1 != ptr) := by
  cases hf : h.live.find? (fun e => e.1 == ptr) with
  | none =>
    rw [dealloc_of_find_none h hf] at hr
    cases hr
  | some e =>
  rw [dealloc_of_find h hf] at hr
  cases hr
  have he : e ∈ h.live := List.mem_of_find?_eq_some hf
  have hptr : e.1 = ptr := by simpa using List.find?_some hf
  have hmem : (ptr, e.2.size) ∈ L := hk.entries ▸ hptr ▸ List.mem_map_of_mem he
  refine ⟨?_, ?_, ?_, ?_⟩
  · rw [← hk.entries, List.filter_map]
    rfl
  · exact (List.filter_sublist.map Prod.fst).nodup hk.nodup
  · show h.allocationBytes - e.2.size = _
    rw [hk.bytes, sum_filter_ne hk.nodup hmem, Int64.add_sub_cancel]
  · intro e' he'
    exact hk.inside e' (List.mem_of_mem_filter he')

/-! ## Every call -/

/-- The heaps that a new heap reaches by calls, with the allocations that the answers of the
    calls leave live (address and size, oldest first): an allocation served joins them, a free
    that is answered takes its address out, and a call that fails leaves them as they were. The
    runtime places every buffer it is asked for apart from the live ones. Asking whether an
    address is live changes nothing, so it needs no rule. -/
inductive Reaches : Heap → List (UInt64 × Int64) → Prop
  | new : Reaches {} []
  | alloc_ok {h : Heap} {L : List (UInt64 × Int64)} {place : Placement} {l : Layout} {p : UInt64}
      {size : Int64} {h' : Heap} : Reaches h L →
      h.Apart (place (served l + padding l)) (served l + padding l) →
      (alloc place l).run h = .ok (p, size) h' → Reaches h' (L ++ [(p, size)])
  | alloc_error {h : Heap} {L : List (UInt64 × Int64)} {place : Placement} {l : Layout}
      {f : Fault} {h' : Heap} : Reaches h L → (alloc place l).run h = .error f h' → Reaches h' L
  | dealloc_ok {h : Heap} {L : List (UInt64 × Int64)} {ptr : UInt64} {h' : Heap} : Reaches h L →
      (dealloc ptr).run h = .ok () h' → Reaches h' (L.filter fun e => e.1 != ptr)
  | dealloc_error {h : Heap} {L : List (UInt64 × Int64)} {ptr : UInt64} {f : Fault} {h' : Heap} :
      Reaches h L → (dealloc ptr).run h = .error f h' → Reaches h' L

/-- Every heap reached keeps exactly the allocations that the answers left live. -/
theorem Reaches.keeps {h : Heap} {L : List (UInt64 × Int64)} (hr : h.Reaches L) : h.Keeps L := by
  induction hr with
  | new => exact Keeps.new
  | alloc_ok _ hap hrun ih => exact ih.alloc hap hrun
  | alloc_error _ hrun ih =>
    rw [alloc_error_state _ _ hrun]
    exact ih
  | dealloc_ok _ hrun ih => exact ih.dealloc hrun
  | dealloc_error _ hrun ih =>
    rw [dealloc_error_state _ hrun]
    exact ih

/-- The bytes served at each live address lie in its own buffer. -/
def ServedInside (h : Heap) : Prop :=
  ∀ e ∈ h.live, e.2.base.toNat ≤ e.1.toNat ∧
    e.1.toNat + e.2.size.toInt.toNat ≤ e.2.base.toNat + e.2.length.toInt.toNat

theorem ServedInside.alloc {h : Heap} (hi : h.ServedInside) {place : Placement} {l : Layout}
    (hroom : (place (served l + padding l)).toNat + (served l + padding l).toInt.toNat ≤ 2 ^ 64)
    {p : UInt64} {size : Int64} {h' : Heap} (hr : (Heap.alloc place l).run h = .ok (p, size) h') :
    h'.ServedInside := by
  obtain ⟨hc, hlim⟩ := fits_of_alloc_ok place h hr
  have hg := grant_of_fits hc hlim _ hroom
  rw [alloc_of_fits place h hc hlim] at hr
  cases hr
  intro e he
  rcases List.mem_append.1 he with he | he
  · exact hi e (List.mem_of_mem_filter he)
  · rw [List.mem_singleton.1 he]
    exact ⟨hg.start_le, hg.end_le⟩

theorem ServedInside.dealloc {h : Heap} (hi : h.ServedInside) {ptr : UInt64} {h' : Heap}
    (hr : (Heap.dealloc ptr).run h = .ok () h') : h'.ServedInside := by
  cases hf : h.live.find? (fun e => e.1 == ptr) with
  | none =>
    rw [dealloc_of_find_none h hf] at hr
    cases hr
  | some e =>
    rw [dealloc_of_find h hf] at hr
    cases hr
    exact fun e' he' => hi e' (List.mem_of_mem_filter he')

theorem Reaches.servedInside {h : Heap} {L : List (UInt64 × Int64)} (hr : h.Reaches L) :
    h.ServedInside := by
  induction hr with
  | new => exact fun e he => absurd he List.not_mem_nil
  | alloc_ok _ hap hrun ih => exact ih.alloc hap.1 hrun
  | alloc_error _ hrun ih =>
    rw [alloc_error_state _ _ hrun]
    exact ih
  | dealloc_ok _ hrun ih => exact ih.dealloc hrun
  | dealloc_error _ hrun ih =>
    rw [dealloc_error_state _ hrun]
    exact ih

/-! ## What the heap promises -/

/-- A request is refused, with an allocation fault and nothing changed, exactly when its layout
    fails its check or its size, at least one byte, exceeds the limit less the padding. -/
theorem alloc_refused_iff (place : Placement) (h : Heap) (l : Layout) :
    (∃ f : Fault, (alloc place l).run h = .error f h ∧ f.kind = .allocation) ↔
      (l.check ≠ .ok () ∨ limit.toInt - (l.align.toNat - 1) < max l.size.toInt 1) := by
  cases hc : l.check with
  | error f =>
    simp only [ne_eq, reduceCtorEq, not_false_eq_true, true_or, iff_true]
    exact ⟨_, alloc_of_invalid place h hc, rfl⟩
  | ok u =>
    cases u
    rw [← over_limit_iff hc]
    by_cases hlim : limit - padding l < served l
    · simp only [hlim, or_true, iff_true]
      exact ⟨_, alloc_of_over_limit place h hc hlim, rfl⟩
    · simp only [ne_eq, not_true_eq_false, hlim, or_self, iff_false, not_exists, not_and]
      intro f hf
      rw [alloc_of_fits place h hc hlim] at hf
      cases hf

/-- A request that passes its check and fits under the limit, served from a buffer that does not
    wrap around the address space, gets what `Grant` says. -/
theorem alloc_served_grant (place : Placement) (h : Heap) {l : Layout} (hc : l.check = .ok ())
    (hfit : max l.size.toInt 1 ≤ limit.toInt - (l.align.toNat - 1))
    (hroom : (place (served l + padding l)).toNat + (served l + padding l).toInt.toNat ≤ 2 ^ 64) :
    ∃ h', (alloc place l).run h = .ok (alignedIn (place (served l + padding l)) l.align, served l) h' ∧
      Grant l (place (served l + padding l)) (served l + padding l)
        (alignedIn (place (served l + padding l)) l.align) (served l) := by
  have hlim : ¬limit - padding l < served l := by
    rw [over_limit_iff hc]
    omega
  exact ⟨_, alloc_of_fits place h hc hlim, grant_of_fits hc hlim _ hroom⟩

/-- What the heap promises once it holds the live allocations `L`. -/
structure Accounts (h : Heap) (L : List (UInt64 × Int64)) : Prop where
  /-- A request is refused, with an allocation fault and nothing changed, exactly when its
      layout fails its check or its size, at least one byte, exceeds the limit less the
      padding. -/
  refused : ∀ (place : Placement) (l : Layout),
    (∃ f : Fault, (alloc place l).run h = .error f h ∧ f.kind = .allocation) ↔
      (l.check ≠ .ok () ∨ limit.toInt - (l.align.toNat - 1) < max l.size.toInt 1)
  /-- Any other request, whose buffer the runtime places apart from the live ones, is served as
      `Grant` says, and the heap then holds the new allocation besides the others. -/
  served : ∀ (place : Placement) (l : Layout), l.check = .ok () →
    max l.size.toInt 1 ≤ limit.toInt - (l.align.toNat - 1) →
    h.Apart (place (served l + padding l)) (served l + padding l) →
    ∃ p h', (alloc place l).run h = .ok (p, served l) h' ∧
      Grant l (place (served l + padding l)) (served l + padding l) p (served l) ∧
      h'.Keeps (L ++ [(p, served l)])
  /-- An address is owned exactly when it is live. -/
  owns : ∀ ptr : UInt64, h.owns ptr = true ↔ ptr ∈ L.map Prod.fst
  /-- The statistics count the live allocations, and their bytes as both the arena's and the
      allocations' bytes. -/
  stats : h.stats.allocationCount = Int64.ofNat L.length ∧
    h.stats.arenaBytes = (L.map Prod.snd).sum ∧ h.stats.allocationBytes = (L.map Prod.snd).sum
  /-- Freeing an address that is not live, a second free included, aborts and changes
      nothing. -/
  foreign : ∀ ptr : UInt64, ptr ∉ L.map Prod.fst →
    (dealloc ptr).run h = .error .heapForeign h ∧ Fault.heapForeign.aborts = true

end Heap

/-- The heap accounts for its live allocations. Whatever calls a new heap has answered, with the
    runtime placing each buffer apart from the live ones and below the top of the address space:
    requests are refused exactly when their layout is invalid or too large for the limit, and
    change nothing then; any other request is served at an aligned address inside a buffer of
    its size plus its padding; ownership holds exactly of the live addresses; the statistics
    count the live allocations and their bytes; and freeing an address that is not live aborts
    with nothing changed. -/
theorem heap_accounts_for_live_allocations {h : Heap} {L : List (UInt64 × Int64)}
    (hr : h.Reaches L) : h.Accounts L where
  refused place l := Heap.alloc_refused_iff place h l
  served place l hc hfit hap := by
    obtain ⟨h', hrun, hgrant⟩ := Heap.alloc_served_grant place h hc hfit hap.1
    exact ⟨_, h', hrun, hgrant, hr.keeps.alloc hap hrun⟩
  owns := hr.keeps.owns_iff
  stats := by
    have hk := hr.keeps
    refine ⟨?_, hk.bytes, hk.bytes⟩
    rw [Heap.stats, ← hk.entries, List.length_map]
  foreign ptr hp := by
    refine ⟨Heap.dealloc_of_not_owns h ?_, rfl⟩
    cases ho : h.owns ptr
    · rfl
    · exact absurd ((hr.keeps.owns_iff ptr).1 ho) hp

/-- One request of 24 bytes aligned to 16, from a buffer of 39 bytes that the runtime puts at
    4100: it is served at 4112, twelve bytes in. -/
theorem heap_after_one_request :
    Heap.Reaches { live := [(4112, ⟨4100, 39, 24⟩)], allocationBytes := 24 } [(4112, 24)] ∧
      Heap.Accounts { live := [(4112, ⟨4100, 39, 24⟩)], allocationBytes := 24 } [(4112, 24)] := by
  have hap : ({} : Heap).Apart ((fun _ => 4100 : Heap.Placement)
      (Heap.served ⟨24, 16⟩ + Heap.padding ⟨24, 16⟩))
      (Heap.served ⟨24, 16⟩ + Heap.padding ⟨24, 16⟩) :=
    ⟨by decide, fun e he => absurd he List.not_mem_nil⟩
  have hr := Heap.Reaches.alloc_ok Heap.Reaches.new hap
    (show (Heap.alloc (fun _ => 4100) ⟨24, 16⟩).run {} =
      .ok (4112, 24) { live := [(4112, ⟨4100, 39, 24⟩)], allocationBytes := 24 } from rfl)
  exact ⟨hr, heap_accounts_for_live_allocations hr⟩

end BlockArena
