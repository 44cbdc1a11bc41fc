import Wiring.Resolver.Basic
/-!
# Sessions with a resolver

A session is a sequence of calls to one resolver, which stands in the care of a registry: the
first shutdown closes the resolver, and later ones do not reach it.
-/

namespace Wiring.Resolver

inductive Call where
  | select (request : Request)
  | reduce (request : Request)
  | resolve (request : Request)
  /-- Hands the whole pool to the rule for ties. -/
  | tie (request : Request)
  | clear
  | close
  | shutdown
  /-- Replaces the rule for ties, the resolver and its registry with it. -/
  | setRule (rule : TieRule)

inductive Answer where
  | selected (answer : Except ResolutionError (List Candidate))
  | reduced (answer : Except ResolutionError (Option Candidate))
  | resolved (answer : Except ResolutionError Candidate)
  | done

structure Session where
  resolver : Resolver
  /-- The registry has not been shut down. -/
  registered : Bool

namespace Session

def start (r : Resolver) : Session := ⟨r, true⟩

/-- The answer to a call, and the session after it. -/
def call (s : Session) : Call → Answer × Session
  | .select request =>
    let (answer, r) := s.resolver.select request
    (.selected answer, { s with resolver := r })
  | .reduce request =>
    let (answer, r) := s.resolver.reduce request
    (.reduced answer, { s with resolver := r })
  | .resolve request =>
    let (answer, r) := s.resolver.resolve request
    (.resolved answer, { s with resolver := r })
  | .tie request =>
    let (answer, r) := s.resolver.consult request s.resolver.pool.candidates
    (.reduced answer, { s with resolver := r })
  | .clear => (.done, { s with resolver := s.resolver.clear })
  | .close => (.done, { s with resolver := s.resolver.close })
  | .shutdown =>
    (.done, if s.registered then ⟨s.resolver.close, false⟩ else s)
  | .setRule rule => (.done, start (s.resolver.withRule rule))

/-- The ties the rule was asked about between two moments of a session. A resolver that was
replaced starts a record of its own. -/
def consultedSince (before after : Session) : List (List Candidate) :=
  after.resolver.consulted.drop before.resolver.consulted.length

/-- The answers to several calls, one after the other. -/
def run (s : Session) : List Call → List Answer × Session
  | [] => ([], s)
  | c :: cs =>
    let (answer, s) := s.call c
    let (answers, s) := s.run cs
    (answer :: answers, s)

end Session

end Wiring.Resolver
