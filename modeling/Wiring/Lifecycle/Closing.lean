import Wiring.Lifecycle.World
/-!
# Closing registries

Closing a registry closes its resources, the latest first, and goes on when one fails; the
failures are collected. A registry is closed before its resources are, so a close that comes back
to it through a cycle finds nothing to do. What is registered in a closed registry is closed at
once. A callback can register itself again when it is closed, without end, so nested closes are
counted and there is no answer when `fuel` runs out.
-/

namespace Wiring.Lifecycle

/-- A way to close a resource, with nothing for an answer when fuel runs out. -/
abbrev Closer := Resource → World → Option (CloseOutcome × World)

/-- Closes resources one after the other and gathers the failures. -/
def closeEach (close : Closer) : List Resource → World → Option (List CloseError × World)
  | [], w => some ([], w)
  | r :: rs, w => do
    let (outcome, w) ← close r w
    let (errors, w) ← closeEach close rs w
    match outcome with
    | .ok () => return (errors, w)
    | .error e => return (e :: errors, w)

/-- Closes a registry: only the first time has any effect. -/
def closeRegistry (close : Closer) (id : RegistryId) (w : World) :
    Option (CloseOutcome × World) :=
  match w.open? id with
  | none => some (.ok (), w)
  | some resources => do
    let (errors, w) ← closeEach close resources.reverse (w.setResources id none)
    return (CloseError.outcome errors, w)

/-- Registers a resource, or closes it at once if the registry is closed. -/
def register (close : Closer) (id : RegistryId) (r : Resource) (w : World) :
    Option (CloseOutcome × World) :=
  match w.open? id with
  | none => close r w
  | some resources => some (.ok (), w.setResources id (some (resources ++ [r])))

/-- Registers a resource in the registry that has the given name. -/
def registerIn (close : Closer) (into : String) (r : Resource) (w : World) :
    Option (Result × World) :=
  match w.handles.get? into with
  | none => some (.unknown into, w)
  | some id => do
    let (o, w) ← register close id r w
    return (.outcome o, w)

/-- Runs one step. -/
def runStep (close : Closer) (step : Step) (w : World) : Option (Result × World) :=
  match step with
  | .create as name => some (.outcome (.ok ()), w.create as name)
  | .child parent as name =>
    match w.handles.get? parent with
    | none => some (.unknown parent, w)
    | some id => do
      let (o, w) ← register close id (.registry w.registries.length) (w.create as name)
      return (.outcome o, w)
  | .register into name script error keepAs =>
    let c : Callback := ⟨name, script, error⟩
    registerIn close into (.callback c) (keepAs.elim w fun k => w.keep k c)
  | .again into kept =>
    match w.kept.get? kept with
    | none => some (.unknown kept, w)
    | some c => registerIn close into (.callback c) w
  | .adopt into registry =>
    match w.handles.get? registry with
    | none => some (.unknown registry, w)
    | some id => registerIn close into (.registry id) w
  | .close registry =>
    match w.handles.get? registry with
    | none => some (.unknown registry, w)
    | some id => do
      let (o, w) ← closeRegistry close id w
      return (.outcome o, w)
  | .closeNamed registry =>
    match w.handles.get? registry with
    | none => some (.unknown registry, w)
    | some id => do
      let name := ((w.registries[id]?).map (·.name)).getD registry
      let (o, w) ← closeRegistry close id w
      return (.named name o, w)

/-- Runs the script of the callback `during`, with each result in the log. -/
def runScript (close : Closer) (during : String) : List Step → World → Option World
  | [], w => some w
  | step :: steps, w => do
    let (result, w) ← runStep close step w
    runScript close during steps (w.record (.ran during result))

/-- Closes a resource. -/
def closeResource : Nat → Closer
  | 0, _, _ => none
  | fuel + 1, .registry id, w => closeRegistry (closeResource fuel) id w
  | fuel + 1, .callback c, w => do
    let w ← runScript (closeResource fuel) c.name c.script (w.record (.closing c.name))
    return (match c.error with | none => .ok () | some e => .error e, w)

namespace World

/-- Runs a step from outside. -/
def step (fuel : Nat) (s : Step) (w : World) : Option (Result × World) :=
  runStep (closeResource fuel) s w

/-- Nested closes enough for any script that ends in a lifetime. -/
def ampleFuel : Nat := Nat.pow 2 40

end World

end Wiring.Lifecycle
