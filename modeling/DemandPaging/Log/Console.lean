import DemandPaging.Log.Event

/-!
# The log console

Records pass a filter and then the installed logger, which prints them on a console. The logger is
installed once: a later attempt is refused and changes neither the console nor the filter. The
filter itself can be set at any time.

## Main definitions

* `Console` — the filter and the console in use.
* `Console.install`, `Console.setMax` — setting up.
* `Console.isEnabled`, `Console.emit` — what gets through.
-/

namespace DemandPaging

/-- The state of the log, for consoles of type `σ`. -/
structure Console (σ : Type) where
  /-- The console of the installed logger. -/
  sink : Option σ
  /-- The filter; nothing passes without a level. -/
  max : Option LogLevel

namespace Console

variable {σ : Type}

/-- No logger is installed and nothing passes the filter. -/
def off : Console σ := ⟨none, none⟩

/-- Installs the logger, and answers whether it did. Only the first call has any effect. -/
def install (c : Console σ) (max : Option LogLevel) (sink : σ) : Bool × Console σ :=
  match c.sink with
  | some _ => (false, c)
  | none => (true, ⟨some sink, max⟩)

/-- Sets the filter. -/
def setMax (c : Console σ) (max : Option LogLevel) : Console σ := { c with max }

/-- Whether the installed logger prints records of this level. -/
def isEnabled (c : Console σ) (level : LogLevel) : Bool :=
  c.sink.isSome && LogLevel.admits c.max level

/-- What a record prints, and where. -/
def emit (c : Console σ) (e : LogEvent) : Option (σ × String) :=
  if LogLevel.admits c.max e.level then c.sink.map fun sink => (sink, e.line) else none

/-- The name of the filter's level. -/
def maxLabel (c : Console σ) : String := (c.max.map LogLevel.label).getD "OFF"

end Console

end DemandPaging
