/-!
# Log levels

## Main definitions

* `LogLevel` — how much a record matters.
* `LogLevel.rank`, `LogLevel.admits` — a filter admits the levels up to its own.
-/

namespace DemandPaging

/-- How much a log record matters, the most important first. -/
inductive LogLevel
  | error
  | warn
  | info
  | debug
  | trace
  deriving DecidableEq, Repr

namespace LogLevel

/-- The place of a level in the order of importance. -/
def rank : LogLevel → Nat
  | error => 1
  | warn => 2
  | info => 3
  | debug => 4
  | trace => 5

/-- The name of a level. -/
def label : LogLevel → String
  | error => "ERROR"
  | warn => "WARN"
  | info => "INFO"
  | debug => "DEBUG"
  | trace => "TRACE"

/-- The name of a level, filled up to five characters. -/
def paddedLabel (l : LogLevel) : String :=
  l.label ++ String.ofList (List.replicate (5 - l.label.length) ' ')

/-- Whether a filter set to `max` lets a record of level `l` through; without a level it lets
nothing through. -/
def admits (max : Option LogLevel) (l : LogLevel) : Bool :=
  match max with
  | none => false
  | some max => decide (l.rank ≤ max.rank)

end LogLevel

end DemandPaging
