import BlockArena.Addr
import BlockArena.Metrics
import BlockArena.Region

/-! # Answers to requests

A request is answered by a reply, by a fault of the library, or by a misuse: a request that
breaks the rules of the request language itself (an unknown operation, a missing slot, a read
outside the buffer). Requests with several steps answer each step on its own.

`Token` is the scalar that names a handle or an address in an answer: a number, a word such as
`dangling` or `inline`, or nothing.
-/

set_option autoImplicit false

namespace BlockArena

namespace Session

/-- A scalar naming a handle or an address. -/
inductive Token where
  | num (n : Int)
  | word (w : String)
  | none
  deriving DecidableEq, Inhabited, Repr

/-- The token of an address: its offset, `dangling`, or nothing for the null address. -/
def Token.ofAddr : Addr → Token
  | .null => .none
  | .dangling => .word "dangling"
  | .offset off => .num off

/-- Why a step has no reply. -/
inductive Failure where
  /-- The request breaks the rules of the request language. -/
  | misuse (message : String)
  /-- The library failed. -/
  | fault (f : Fault)
  deriving Inhabited, Repr

/-- The replies of successful steps. -/
inductive Reply where
  | empty
  | ok
  | value (v : Int)
  | truth (b : Bool)
  | layout (l : Layout) (text : String) (withSize : Option Layout)
  | arrayLayout (l elem : Layout)
  | size (n : Int)
  | region (bytes : Region) (fits : Option String)
  | danglingPointer
  | text (s : String)
  | failureText (s : String)
  | stats (s : Stats)
  | detailed (d : DetailedStats)
  | placed (offset size : Int)
  | grown (size : Int) (ok : Bool)
  | owns (b : Bool)
  | emptiness (b : Bool)
  /-- A map of an arena or a storage, as JSON text. -/
  | map (json : String)
  | released (parentDeallocs : Nat)
  | id (n : Nat)
  | data (hex : Option String)
  | scrape (s : Metrics.Scrape)
  | heapAlloc (id : Nat) (size : Int)
  | handleSize (handle : Token) (size : Int)
  | handle (handle : Token)
  | ptr (p : Token)
  | ptrSize (p : Token) (size : Int)
  | epoch (n : Nat)
  | stable (b : Bool)
  | compaction (bytesMoved allocationsMoved : Int)
  | length (n : Int)
  | info (kind elem : String) (handle : Option Token) (len : Option Int)
  | raw (handle : Token) (len : Option Int)
  /-- A resolved handle: its address, its length for slices, and its bytes when asked for
      (`some none` when they cannot be read). -/
  | resolved (p : Token) (len : Option Int) (data : Option (Option String))
  | valid (b : Bool)
  deriving Inhabited, Repr

abbrev Answer := Except Failure Reply

/-- The answer to a whole request. -/
inductive Response where
  /-- A request of one step, or a request whose set-up failed. -/
  | single (a : Answer)
  /-- The answers of the steps, in order. -/
  | results (steps : List Answer)
  /-- The set-up of a storage failed after its parent had freed `parentDeallocs` buffers. -/
  | refused (f : Fault) (parentDeallocs : Nat)
  deriving Inhabited, Repr

def misuse {α : Type} (message : String) : Except Failure α := .error (.misuse message)

def failWith {α : Type} (f : Fault) : Except Failure α := .error (.fault f)

def ofExcept {α : Type} (r : Except Fault α) (reply : α → Reply) : Answer :=
  match r with
  | .ok a => .ok (reply a)
  | .error f => .error (.fault f)

end Session

end BlockArena
