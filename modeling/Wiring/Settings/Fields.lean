import Wiring.Settings.Basic
/-!
# The fields of the settings

Every record of settings lists its fields once, each with all that is declared of it. Both readings
of the settings go by these lists: the loader takes from them which keys there are and what each
holds, and the schema besides that what a field means, its default, and the least value that it
should have. A field that is absent has its default, and a record refuses all other keys.
-/

namespace Wiring.Settings

/-- What a field holds. -/
inductive FieldType where
  | text
  | flag
  /-- A count, which may be absent. -/
  | count
deriving DecidableEq, Repr

/-- The values of a type. -/
abbrev FieldType.Content : FieldType → Type
  | text => String
  | flag => Bool
  | count => Option Nat

/-- A field of a record, as it is declared. -/
structure Field (σ : Type) where
  name : String
  type : FieldType
  description : String
  get : σ → type.Content
  set : type.Content → σ → σ
  /-- The least value of a count. It is declared for the schema only: the loader does not look at
  it. -/
  minimum : Nat := 0

/-- A record of settings. No two of its fields share a name. -/
structure Record (σ : Type) where
  name : String
  description : Option String := none
  default : σ
  fields : List (Field σ)
  nodup_names : (fields.map Field.name).Nodup := by decide

/-- A record with its place in the settings. -/
structure Section where
  {σ : Type}
  name : String
  record : Record σ
  get : Settings → σ
  set : σ → Settings → Settings

def loggingRecord : Record LoggingSettings where
  name := "LoggingConfig"
  default := .default
  fields := [
    { name := "level"
      type := .text
      description := "Logging level for all Keel crates.\n\nEither a simple level (`info`, " ++
        "`debug`, ...) or a full `EnvFilter` directive string."
      get := LoggingSettings.level
      set := fun level s => { s with level } },
    { name := "json"
      type := .flag
      description := "Emit logs in JSON format."
      get := LoggingSettings.json
      set := fun json s => { s with json } },
    { name := "stderr"
      type := .flag
      description := "Write logs to stderr. When disabled, `init_tracing` installs a subscriber " ++
        "without any output layer (useful to silence embedders' tests)."
      get := LoggingSettings.stderr
      set := fun stderr s => { s with stderr } }]

def capacityField : Field ResolutionSettings where
  name := "cache_capacity"
  type := .count
  description := "Maximum number of cached criteria per cache. Once reached, results are still " ++
    "computed but no longer stored. Unbounded when unset."
  get := ResolutionSettings.cacheCapacity
  set := fun cacheCapacity s => { s with cacheCapacity }
  minimum := 1

def resolutionRecord : Record ResolutionSettings where
  name := "ResolutionConfig"
  description := "Knobs for the selection/reduction pipeline."
  default := .default
  fields := [
    { name := "cache_selections"
      type := .flag
      description := "Cache the candidates selected for each criteria."
      get := ResolutionSettings.cacheSelections
      set := fun cacheSelections s => { s with cacheSelections } },
    { name := "cache_reductions"
      type := .flag
      description := "Cache the reduced winner for each criteria."
      get := ResolutionSettings.cacheReductions
      set := fun cacheReductions s => { s with cacheReductions } },
    capacityField]

def loggingSection : Section where
  name := "logging"
  record := loggingRecord
  get := Settings.logging
  set := fun logging s => { s with logging }

def resolutionSection : Section where
  name := "resolution"
  record := resolutionRecord
  get := Settings.resolution
  set := fun resolution s => { s with resolution }

/-- The records of the settings. -/
def sections : List Section := [loggingSection, resolutionSection]

theorem nodup_section_names : (sections.map Section.name).Nodup := by decide

end Wiring.Settings
