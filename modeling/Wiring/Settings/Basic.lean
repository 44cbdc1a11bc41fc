/-!
# Settings

What can be set: how to log, and what a resolver remembers.
-/

namespace Wiring

structure LoggingSettings where
  /-- A level name, or a list of directives of a log filter. -/
  level : String
  json : Bool
  stderr : Bool
deriving DecidableEq, Repr

namespace LoggingSettings

def default : LoggingSettings := ⟨"info", false, true⟩

instance : Inhabited LoggingSettings := ⟨default⟩

end LoggingSettings

structure ResolutionSettings where
  cacheSelections : Bool
  cacheReductions : Bool
  /-- How many requests each memo keeps; no limit if absent. -/
  cacheCapacity : Option Nat
deriving DecidableEq, Repr

namespace ResolutionSettings

def default : ResolutionSettings := ⟨true, true, none⟩

instance : Inhabited ResolutionSettings := ⟨default⟩

end ResolutionSettings

structure Settings where
  logging : LoggingSettings
  resolution : ResolutionSettings
deriving DecidableEq, Repr

namespace Settings

def default : Settings := ⟨.default, .default⟩

instance : Inhabited Settings := ⟨default⟩

end Settings

end Wiring
