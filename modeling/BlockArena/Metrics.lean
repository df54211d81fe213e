import BlockArena.Fault
import BlockArena.Stats
import BlockArena.Text.ByteSize
import BlockArena.Text.Quoted

/-! # Metrics

One scrape of the statistics of some sources yields three gauges: the arena bytes, the bytes
claimed by live allocations, and the number of live allocations, each described by a
descriptor that carries a fully qualified name, a help text and one constant label `name`.

A fully qualified name joins the non-empty parts of namespace, subsystem and name with `_`.
A metric name is valid when it is not empty, starts with a letter, `_` or `:`, and continues
with letters, digits, `_` or `:`. A scrape with an invalid name aborts with that fault; the
descriptors are written after the names were found valid.

A gauge holds a binary64 value, so a count reads back rounded to 53 significant bits. It
reads back into a signed word, where a rounded count of magnitude `2^63` has no place: it
reads back as `-2^63`, the word that stands for every value out of range.
-/

set_option autoImplicit false

namespace BlockArena

namespace Metrics

/-- Join the non-empty parts of a metric name with `_`. -/
def qualifiedName (space subsystem name : String) : String :=
  "_".intercalate ([space, subsystem, name].filter fun p => !p.isEmpty)

def isNameStart (c : Char) : Bool :=
  ('a' ≤ c && c ≤ 'z') || ('A' ≤ c && c ≤ 'Z') || c == '_' || c == ':'

/-- A metric name is a name-start character followed by name-start characters and digits. -/
def isValidName (s : String) : Bool :=
  match s.toList with
  | [] => false
  | c :: rest => isNameStart c && rest.all fun d => isNameStart d || ('0' ≤ d && d ≤ '9')

/-- A gauge description: qualified name, help text and the value of the `name` label. -/
structure Desc where
  fqName : String
  help : String
  label : String
  deriving DecidableEq, Inhabited, Repr

def Desc.render (d : Desc) : String :=
  let n := Text.quote d.fqName
  let h := Text.quote d.help
  let l := Text.quote d.label
  "Desc\x7bfqName: " ++ n ++ ", help: " ++ h ++ ", constLabels: \x7bname=" ++ l ++
    "\x7d, variableLabels: \x7b\x7d\x7d"

/-- One gauge reading. -/
structure Sample where
  desc : Desc
  value : Int
  deriving DecidableEq, Inhabited, Repr

/-- The result of one scrape: the descriptions and the readings, in emission order. -/
structure Scrape where
  descs : List Desc
  samples : List Sample
  deriving DecidableEq, Inhabited, Repr

/-- The three gauge descriptions under a namespace and a label value. -/
def descs (space label : String) : List Desc :=
  [⟨qualifiedName space "arena" "bytes", "Bytes available to clients across all arenas.",
      label⟩,
   ⟨qualifiedName space "allocation" "bytes", "Arena bytes claimed by live allocations.",
      label⟩,
   ⟨qualifiedName space "allocations" "live", "Number of live allocations.", label⟩]

/-- A word as a gauge reads it back: rounded to 53 significant bits, sign kept, and `-2^63`
    for a rounded magnitude of `2^63`. -/
def gaugeValue (v : Int64) : Int :=
  let m := Text.roundSignificand v.toInt.natAbs
  if 9223372036854775808 ≤ m then -9223372036854775808
  else if v < 0 then -(m : Int) else m

def scrape (space label : String) (stats : Stats) : Except Fault Scrape :=
  let ds := descs space label
  match ds.find? (fun d => !isValidName d.fqName) with
  | some bad => .error (.invalidMetricName bad.fqName)
  | none =>
    let values := [stats.arenaBytes, stats.allocationBytes, stats.allocationCount]
    .ok ⟨ds, (ds.zip values).map fun p => ⟨p.1, gaugeValue p.2⟩⟩

end Metrics

end BlockArena
