import Wiring.Sorted.Map
import Wiring.Text.Alphanumeric
import Wiring.Text.Blank
import Wiring.Text.Digits
import Wiring.Text.Pieces
/-!
# Log filters

A log filter says for each target, and for what has no target of its own, down to which level
messages are kept. It is written as a list of directives `level` or `target=level`, where a later
directive for a target replaces an earlier one, and is always shown with the longest targets
first.

This is what a library of log filters is assumed to do with lists of such directives; its other
forms of directives, by span and by field, are left out, and no theorem rests on it.
-/

namespace Wiring

/-- How much is logged, from nothing to everything. -/
inductive LogLevel where
  | off
  | error
  | warn
  | info
  | debug
  | trace
deriving DecidableEq, Inhabited, Repr

namespace LogLevel

def all : List LogLevel := [off, error, warn, info, debug, trace]

def name : LogLevel → String
  | off => "off"
  | error => "error"
  | warn => "warn"
  | info => "info"
  | debug => "debug"
  | trace => "trace"

/-- The level with a number from 0 for `off` to 5 for `trace`, written with decimal digits. -/
def ofDigits? (cs : List Char) : Option LogLevel :=
  if cs ≠ [] ∧ cs.all Char.isDigit then
    all[Text.valueOf 10 cs]?
  else none

/-- A level is named in upper or lower case, or numbered. -/
def ofText? (cs : List Char) : Option LogLevel :=
  let digits := if cs.head? = some '+' then cs.tail else cs
  (ofDigits? digits).or (all.find? fun l => l.name.toList = cs.map Char.toLower)

end LogLevel

/-! ## Targets -/

/-- The target of a directive, or none if the directive is for all that has no other. -/
structure LogTarget where
  name : Option String
deriving DecidableEq, Inhabited, Repr

namespace LogTarget

/-- Longer targets are more specific; targets of one length are taken by their order. -/
def specificity : LogTarget → LogTarget → Ordering :=
  compareLex (compareOn fun t => t.name.map String.utf8ByteSize) (compareOn LogTarget.name)

/-- The most specific target comes first. -/
instance : Ord LogTarget := ⟨fun s t => specificity t s⟩

instance : Std.TransCmp specificity := inferInstanceAs (Std.TransCmp (compareLex _ _))

instance : Std.TransOrd LogTarget where
  eq_swap := (inferInstance : Std.OrientedCmp specificity).eq_swap
  isLE_trans h h' := (inferInstance : Std.TransCmp specificity).isLE_trans h' h

instance : Std.LawfulEqOrd LogTarget where
  compare_self := (inferInstance : Std.ReflCmp (compareLex _ _)).compare_self
  eq_of_compare {s t} h := by
    obtain ⟨_, hn⟩ := Ordering.then_eq_eq.1 h
    cases s
    cases t
    exact congrArg _ (Std.LawfulEqOrd.eq_of_compare hn).symm

end LogTarget

/-! ## Filters -/

/-- The level of each target that a filter names. -/
abbrev LogFilter := SortedMap LogTarget LogLevel

namespace LogFilter

/-- One directive: where it applies, and the level there. -/
abbrev Directive := LogTarget × LogLevel

/-- Blanks apart, a directive starts with a letter, a digit or one of three marks. -/
def startsDirective (c : Char) : Bool := Text.isAlphanumeric c || c ∈ ['-', ':', '_']

/-- A directive `level`, `target` (with all its messages) or `target=level`, where no level is
the same as all messages. Blanks belong to a target, so that no level is named with a blank
beside it; with a level behind it a target has none in front. -/
def Directive.ofText? (cs : List Char) : Option Directive := do
  guard ((cs.dropWhile Text.isBlank).head?.any startsDirective)
  match Text.pieces '=' cs with
  | [part] =>
    match LogLevel.ofText? part with
    | some level => return (⟨none⟩, level)
    | none => return (⟨some (String.ofList part)⟩, .trace)
  | [target, level] =>
    guard !(target.head?.any Text.isBlank)
    let level ← if level = [] then some .trace else LogLevel.ofText? level
    return (⟨some (String.ofList target)⟩, level)
  | _ => none

/-- The filter with a directive added. -/
def add (f : LogFilter) (d : Directive) : LogFilter := f.insert d.1 d.2

/-- The filter of a list of directives. -/
def ofDirectives (ds : List Directive) : LogFilter := ds.foldl add ∅

/-- Reads directives between commas; a filter with a malformed directive is none. -/
def ofText? (s : String) : Option LogFilter :=
  ofDirectives <$> ((Text.pieces ',' s.toList).filter (· ≠ [])).mapM Directive.ofText?

def directiveText : Directive → String
  | (⟨none⟩, l) => l.name
  | (⟨some target⟩, l) => target ++ "=" ++ l.name

def text (f : LogFilter) : String := ",".intercalate (f.toList.map directiveText)

end LogFilter

end Wiring
