import Wiring.LogFilter
import Wiring.Settings.Basic
import Wiring.Text.Blank
/-!
# The log filter of the settings

A level may be a name, in any case and with blanks around it, or directives of a filter. The
environment may add directives, which win over the settings. Directives that cannot be read are
left out: first those of the settings, then those of the environment. Which directives can be read
is for the library of filters to say (`LogFilter`).
-/

namespace Wiring.LoggingSettings

/-- The level names that are recognised alone, each with its usual spelling. -/
def levelNames : List (String × String) := [
  ("trace", "trace"), ("debug", "debug"), ("info", "info"), ("warn", "warn"),
  ("warning", "warn"), ("error", "error")]

/-- A level name in its usual spelling, `info` for blanks, and other directives as they stand. -/
def normalizeLevel (level : String) : String :=
  let trimmed := Text.trim level
  if trimmed.isEmpty then default.level
  else (levelNames.lookup (trimmed.map Char.toLower)).getD trimmed

/-- The filter of the settings alone, which keeps `info` if the level cannot be read. -/
def ownFilter (s : LoggingSettings) : LogFilter :=
  (LogFilter.ofText? (normalizeLevel s.level)).getD (.ofDirectives [(⟨none⟩, .info)])

/-- The filter of the settings, with the directives that the environment adds. -/
def filter (s : LoggingSettings) (environment : Option String) : LogFilter :=
  match (environment.map Text.trim).filter (!·.isEmpty) with
  | none => s.ownFilter
  | some added =>
    (LogFilter.ofText? (normalizeLevel s.level ++ "," ++ added)).getD
      ((LogFilter.ofText? added).getD s.ownFilter)

end Wiring.LoggingSettings
