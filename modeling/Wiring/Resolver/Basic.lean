import Wiring.Memo.Op
import Wiring.Reduction
import Wiring.Settings.Basic
/-!
# Resolvers

A resolver answers requests from a fixed pool and may remember what it found: selections in one
memo, reductions in another, both by the whole request, its policy included. What it answers is
what `Pool.select` and `Pool.reduce` answer. It also records which ties its rule was asked about.
-/

namespace Wiring

structure Resolver where
  sys : TypeSystem
  pool : Pool
  settings : ResolutionSettings
  rule : TieRule
  /-- Absent where selections are not remembered. -/
  selections : Option (Memo Request (List Candidate))
  /-- Absent where reductions are not remembered. -/
  reductions : Option (Memo Request (Option Candidate))
  /-- The ties the rule was asked about, the oldest first. -/
  consulted : List (List Candidate)

namespace Resolver

/-- A resolver that remembers nothing yet. -/
def new (sys : TypeSystem) (pool : Pool) (settings : ResolutionSettings) (rule : TieRule) :
    Resolver where
  sys := sys
  pool := pool
  settings := settings
  rule := rule
  selections := if settings.cacheSelections then some (.withCapacity settings.cacheCapacity)
    else none
  reductions := if settings.cacheReductions then some (.withCapacity settings.cacheCapacity)
    else none
  consulted := []

/-- The resolver with another rule for ties. It starts over, with nothing remembered. -/
def withRule (r : Resolver) (rule : TieRule) : Resolver := new r.sys r.pool r.settings rule

/-- Drops all that is remembered. -/
def clear (r : Resolver) : Resolver :=
  { r with selections := r.selections.map Memo.clear, reductions := r.reductions.map Memo.clear }

/-- The candidates that answer the request, in pool order. -/
def select (r : Resolver) (request : Request) :
    Except ResolutionError (List Candidate) × Resolver :=
  match r.selections with
  | none => (r.pool.select r.sys request, r)
  | some m =>
    let (answer, m, _) := m.compute () request fun m _ => (r.pool.select r.sys request, m, ())
    (answer, { r with selections := some m })

/-- Asks the rule about a tie. -/
def consult (r : Resolver) (request : Request) (cs : List Candidate) :
    Except ResolutionError (Option Candidate) × Resolver :=
  (r.rule request cs, { r with consulted := r.consulted ++ [cs] })

/-- The winner among the selected candidates, found without a look at remembered reductions. -/
def reduceAnew (r : Resolver) (request : Request) :
    Except ResolutionError (Option Candidate) × Resolver :=
  match r.select request with
  | (.error e, r) => (.error e, r)
  | (.ok cs, r) =>
    match Reduction.ofList cs with
    | .empty => (.ok none, r)
    | .resolved c => (.ok (some c), r)
    | .unresolved cs => r.consult request cs

/-- The winner, or nothing if no candidate answers the request. -/
def reduce (r : Resolver) (request : Request) :
    Except ResolutionError (Option Candidate) × Resolver :=
  match r.reductions with
  | none => r.reduceAnew request
  | some m =>
    let (answer, m, r) := m.compute r request fun m r =>
      let (answer, r) := r.reduceAnew request
      (answer, m, r)
    (answer, { r with reductions := some m })

/-- The winner; that there is none is an error. -/
def resolve (r : Resolver) (request : Request) : Except ResolutionError Candidate × Resolver :=
  match r.reduce request with
  | (.error e, r) => (.error e, r)
  | (.ok none, r) => (.error (.unsatisfied request), r)
  | (.ok (some c), r) => (.ok c, r)

/-- The name under which a resolver is closed. -/
def name : String := "keel-resolver"

/-- Closing a resolver drops what it remembers, and never fails. -/
def close (r : Resolver) : Resolver := r.clear

end Resolver

end Wiring
