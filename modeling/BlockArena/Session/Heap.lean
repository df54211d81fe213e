import BlockArena.Heap
import BlockArena.Session.Answer
import BlockArena.Session.Request

/-! # Running steps on the process heap

A heap request starts from a fresh heap and runs its steps in order. Addresses are not shown:
allocations are named by their number, and the request keeps the address of each. A number the
heap never gave out is a misuse, while a number that was given out and freed reaches the heap
with its address, which then aborts. The steps that name an allocation and a layout look the
number up before they read the layout.

The runtime that places the heap's buffers is stood in for by `placeNth`: the `k`-th buffer of a
request starts at `(k + 1) · 2^41`. No buffer is longer than `2^40` bytes, so they never overlap.
-/

set_option autoImplicit false

namespace BlockArena

namespace Session

/-- A heap request's state: the heap, and the address of each allocation by its number. -/
structure HeapRun where
  heap : Heap := {}
  issued : List UInt64 := []
  deriving Inhabited

/-- Where the `k`-th buffer of a request goes: `(k + 1) · 2^41`. -/
def placeNth (k : Nat) : Heap.Placement := fun _ => UInt64.ofNat ((k + 1) * 2199023255552)

/-- The address of a heap allocation, if the heap ever gave out its number. -/
def issuedAddr (r : HeapRun) (id : Int) : Except Failure UInt64 :=
  if h : 0 ≤ id ∧ id.toNat < r.issued.length then .ok (r.issued.get ⟨id.toNat, h.2⟩)
  else misuse ("no heap allocation with id " ++ toString id)

/-- The address of the allocation a step names, then the layout it names, which must have been
    read. -/
def issuedWith (r : HeapRun) (id : Int) (l : Field Layout) : Except Failure UInt64 := do
  let ptr ← issuedAddr r id
  let _ ← required l
  pure ptr

def HeapStep.run (r : HeapRun) : HeapStep → Answer × HeapRun
  | .alloc l =>
    match (Heap.alloc (placeNth r.issued.length) l).run r.heap with
    | .ok p h' => (.ok (.heapAlloc r.issued.length p.2.toInt), ⟨h', r.issued ++ [p.1]⟩)
    | .error f h' => (failWith f, { r with heap := h' })
  | .dealloc id l =>
    match issuedWith r id l with
    | .error e => (.error e, r)
    | .ok ptr =>
      match (Heap.dealloc ptr).run r.heap with
      | .ok _ h' => (.ok .empty, { r with heap := h' })
      | .error f h' => (failWith f, { r with heap := h' })
  | .owns id l =>
    match issuedWith r id l with
    | .error e => (.error e, r)
    | .ok ptr => (.ok (.owns (r.heap.owns ptr)), r)
  | .stats => (.ok (.stats r.heap.stats), r)
  | .setAllocId id => (.ok .empty, { r with heap := { r.heap with allocId := id.toUInt16 } })
  | .allocId => (.ok (.id r.heap.allocId.toNat), r)
  | .collect space name => (ofExcept (Metrics.scrape space name r.heap.stats) .scrape, r)
  | .unknown _ => (misuse "unknown heap op", r)
  | .misread why => (misuse why.message, r)

def heapAnswers (r : HeapRun) : List HeapStep → List Answer
  | [] => []
  | st :: rest =>
    let (a, r') := st.run r
    a :: heapAnswers r' rest

end Session

end BlockArena
