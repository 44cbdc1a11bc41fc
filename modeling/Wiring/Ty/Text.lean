import Wiring.Ty.Basic
/-!
# The text of a type

One renderer serves two texts: `Ty.text` numbers classes and variables, and a class table
renders the same shapes with the declared names.
-/

namespace Wiring

def ClassId.text (c : ClassId) : String := "class#" ++ toString c.raw.toNat

def TypeVarId.text (v : TypeVarId) : String := "T#" ++ toString v.raw.toNat

namespace Ty

mutual

/-- The text of a type, given the texts of classes and variables. -/
def render (classText : ClassId → String) (varText : TypeVarId → String) : Ty → String
  | .primitive p => p.keyword
  | .array t => t.render classText varText ++ "[]"
  | .declared c [] => classText c
  | .declared c (t :: ts) =>
    classText c ++ "<" ++ t.render classText varText ++ renderRest classText varText ", " ts ++ ">"
  | .var v => varText v
  | .wildcard upper lower =>
    "?" ++ renderBound classText varText " extends " upper ++
      renderBound classText varText " super " lower
  | .intersection [] => ""
  | .intersection (t :: ts) =>
    t.render classText varText ++ renderRest classText varText " & " ts

/-- The texts of `ts`, each after the separator `sep`. -/
def renderRest (classText : ClassId → String) (varText : TypeVarId → String) (sep : String) :
    List Ty → String
  | [] => ""
  | t :: ts => sep ++ t.render classText varText ++ renderRest classText varText sep ts

/-- A bound after its keyword; nothing if there is no bound. -/
def renderBound (classText : ClassId → String) (varText : TypeVarId → String) (keyword : String) :
    Option Ty → String
  | none => ""
  | some t => keyword ++ t.render classText varText

end

/-- The text that names classes and variables by their numbers. -/
def text (t : Ty) : String := t.render ClassId.text TypeVarId.text

end Ty

end Wiring
