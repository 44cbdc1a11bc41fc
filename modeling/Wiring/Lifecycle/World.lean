import Wiring.Lifecycle.CloseError
import Wiring.Sorted.Map
import Wiring.Text.Quoted
/-!
# Registries of resources

A registry holds resources that are closed together with it. A resource is a callback or another
registry, and one registry may stand in several others, in itself, or twice in one. A `World`
holds all registries with the names by which they are known, and a log of what was closed.
-/

namespace Wiring.Lifecycle

/-- Number of a registry in a world. -/
abbrev RegistryId := Nat

/-- A step of a script. Registries and callbacks are known by names, which a later step may give
to others. -/
inductive Step where
  /-- Makes a registry. -/
  | create (as name : String)
  /-- Makes a registry and registers it in another. -/
  | child (parent as name : String)
  /-- Registers a callback that runs `script` when closed and then fails with `error`, if given.
  It may be kept under a name. -/
  | register (into name : String) (script : List Step) (error : Option CloseError)
    (keepAs : Option String)
  /-- Registers a kept callback once more. -/
  | again (into kept : String)
  /-- Registers a registry in another one. -/
  | adopt (into registry : String)
  | close (registry : String)
  /-- Closes a registry as a resource, by its own name. -/
  | closeNamed (registry : String)

/-- A resource that runs a script when it is closed. -/
structure Callback where
  name : String
  script : List Step
  error : Option CloseError

/-- What a registry holds. -/
inductive Resource where
  | callback (c : Callback)
  | registry (id : RegistryId)

structure Registry where
  name : String
  /-- The resources in the order of registration, or nothing once closed. -/
  resources : Option (List Resource)

namespace Registry

def isClosed (r : Registry) : Bool := r.resources.isNone

/-- How many resources are registered; none once closed. -/
def size (r : Registry) : Nat := (r.resources.getD []).length

/-- The fields that can be seen of a registry. -/
def view (r : Registry) : String × Bool × Nat := (r.name, r.isClosed, r.size)

/-- The fields in one line. -/
def text (r : Registry) : String :=
  "CloseRegistry \x7b name: " ++ Text.quote r.name ++ ", closed: " ++
    (if r.isClosed then "true" else "false") ++ ", resources: " ++ toString r.size ++ " \x7d"

end Registry

/-- What a step comes to. -/
inductive Result where
  | outcome (o : CloseOutcome)
  /-- The outcome for a resource that gave its name. -/
  | named (name : String) (o : CloseOutcome)
  /-- The step names nothing that is known. -/
  | unknown (handle : String)

inductive Event where
  /-- A callback begins to close. -/
  | closing (name : String)
  /-- A step of the script of the callback `during` was run. -/
  | ran (during : String) (result : Result)

structure World where
  registries : List Registry
  handles : SortedMap String RegistryId
  kept : SortedMap String Callback
  /-- What happened, the oldest first. -/
  log : List Event

namespace World

def empty : World := ⟨[], ∅, ∅, []⟩

def registry? (w : World) (handle : String) : Option Registry :=
  (w.handles.get? handle).bind (w.registries[·]?)

/-- The resources of a registry that is not closed. -/
def open? (w : World) (id : RegistryId) : Option (List Resource) :=
  (w.registries[id]?).bind (·.resources)

def record (w : World) (e : Event) : World := { w with log := w.log ++ [e] }

def setResources (w : World) (id : RegistryId) (resources : Option (List Resource)) : World :=
  { w with registries := w.registries.modify id fun r => { r with resources := resources } }

/-- Adds an open registry. Its number is the count of those before it. -/
def create (w : World) (as name : String) : World :=
  { w with
    registries := w.registries ++ [⟨name, some []⟩]
    handles := w.handles.insert as w.registries.length }

def keep (w : World) (name : String) (c : Callback) : World :=
  { w with kept := w.kept.insert name c }

/-- The registries whose name is new, or whose fields changed. -/
def changedSince (before after : World) : List (String × Registry) :=
  after.handles.toList.filterMap fun (handle, id) =>
    (after.registries[id]?).bind fun r =>
      if (before.registry? handle).map (·.view) = some r.view then none else some (handle, r)

end World

end Wiring.Lifecycle
