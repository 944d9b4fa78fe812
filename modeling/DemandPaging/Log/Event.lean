import DemandPaging.Log.Level

/-!
# Log records

## Main definitions

* `LogEvent` — a level, the place it comes from and a text.
* `LogEvent.line` — the record as the console prints it.
-/

namespace DemandPaging

/-- A log record. -/
structure LogEvent where
  level : LogLevel
  /-- The part of the system that logs. -/
  target : String
  text : String
  deriving DecidableEq, Repr

/-- A record on one line: level and target in brackets, then the text. -/
def LogEvent.line (e : LogEvent) : String := s!"[{e.level.paddedLabel} {e.target}] {e.text}"

end DemandPaging
