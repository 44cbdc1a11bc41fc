import Wiring.Ty.Text
/-!
# Class tables

A class table lists declarations of classes and of type variables. A declaration is known by its
place in the list, so new declarations never disturb earlier ones; a name may be declared again
and then stands for the latest class of that name.
-/

namespace Wiring

inductive ClassKind where
  | classKind
  | interfaceKind
deriving DecidableEq, Repr

structure ClassDecl where
  name : String
  kind : ClassKind
  params : List TypeVarId
  superclass : Option Ty
  interfaces : List Ty
deriving DecidableEq

structure TypeVarDecl where
  name : String
  /-- The upper bounds in declaration order; none means the top type. -/
  bounds : List Ty
deriving DecidableEq

structure ClassTable where
  classes : Array ClassDecl
  typeVars : Array TypeVarDecl
deriving DecidableEq

namespace ClassTable

def empty : ClassTable := ⟨#[], #[]⟩

def class? (s : ClassTable) (c : ClassId) : Option ClassDecl := s.classes[c.raw.toNat]?

def typeVar? (s : ClassTable) (v : TypeVarId) : Option TypeVarDecl := s.typeVars[v.raw.toNat]?

/-- The number the next declared class will have. -/
def nextClassId (s : ClassTable) : ClassId := ⟨UInt32.ofNat s.classes.size⟩

def nextTypeVarId (s : ClassTable) : TypeVarId := ⟨UInt32.ofNat s.typeVars.size⟩

def addClass (s : ClassTable) (d : ClassDecl) : ClassTable :=
  { s with classes := s.classes.push d }

def addTypeVar (s : ClassTable) (d : TypeVarDecl) : ClassTable :=
  { s with typeVars := s.typeVars.push d }

/-- The latest class declared under `name`. -/
def classId? (s : ClassTable) (name : String) : Option ClassId :=
  (s.classes.zipIdx.findRev? (·.1.name == name)).map fun found => ⟨UInt32.ofNat found.2⟩

/-- The class declares type parameters. -/
def isGeneric (s : ClassTable) (c : ClassId) : Bool :=
  (s.class? c).any fun d => !d.params.isEmpty

/-! ## Names -/

def classText (s : ClassTable) (c : ClassId) : String :=
  ((s.class? c).map (·.name)).getD c.text

def varText (s : ClassTable) (v : TypeVarId) : String :=
  ((s.typeVar? v).map (·.name)).getD v.text

/-- The text of a type with declared names; what is not declared keeps its number. -/
def nameOf (s : ClassTable) (t : Ty) : String := t.render s.classText s.varText

end ClassTable

end Wiring
