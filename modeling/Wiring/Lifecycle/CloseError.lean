/-!
# Failures of closing

A failure to close something, or several of them with the first in front. Collecting failures
takes nested ones apart, so that what is collected names every single failure once, in order.
-/

namespace Wiring

inductive CloseError where
  | failed (name message : String)
  | aggregate (first : CloseError) (suppressed : List CloseError)
deriving Inhabited

/-- What closing comes to. -/
abbrev CloseOutcome := Except CloseError Unit

namespace CloseError

def message : CloseError → String
  | .failed name message => "failed to close `" ++ name ++ "`: " ++ message
  | .aggregate first suppressed =>
    first.message ++ " (" ++ toString suppressed.length ++ " suppressed)"

/-- The first failure and those behind it, as they stand. -/
def failures : CloseError → List CloseError
  | .failed name message => [.failed name message]
  | .aggregate first suppressed => first :: suppressed

mutual

/-- The single failures in a failure, in order. -/
def leaves : CloseError → List CloseError
  | .failed name message => [.failed name message]
  | .aggregate first suppressed => first.leaves ++ leavesList suppressed

def leavesList : List CloseError → List CloseError
  | [] => []
  | e :: es => e.leaves ++ leavesList es

end

/-- All failures as one: nothing for none, a single failure as it is. -/
def collect (errors : List CloseError) : Option CloseError :=
  match leavesList errors with
  | [] => none
  | [e] => some e
  | e :: es => some (.aggregate e es)

/-- Closing comes to the collected failures of its parts. -/
def outcome (errors : List CloseError) : CloseOutcome :=
  match collect errors with
  | none => .ok ()
  | some e => .error e

end CloseError

end Wiring
