import BlockArena.Fault

/-! # Operations on a state

An operation on a state `σ` either answers a value or fails with a fault; in both cases it
leaves a state behind. A failure part-way through an operation keeps whatever the operation had
already changed, which is how an abort in the middle of a loop is seen by later operations.
-/

set_option autoImplicit false

namespace BlockArena

/-- An operation on `σ` that answers an `α` or fails with a fault, leaving a state either way. -/
abbrev Act (σ α : Type) := EStateM Fault σ α

namespace Act

def fail {σ α : Type} (f : Fault) : Act σ α := throw f

def ofExcept {σ α : Type} : Except Fault α → Act σ α
  | .ok a => pure a
  | .error f => throw f

/-- Run an operation on a part of a larger state: `get` reads the part, `put` writes it back,
    also after a failure. -/
def focus {σ τ α : Type} (get : σ → τ) (put : σ → τ → σ) (act : Act τ α) : Act σ α :=
  fun s =>
    match act (get s) with
    | .ok a t => .ok a (put s t)
    | .error f t => .error f (put s t)

end Act

end BlockArena
