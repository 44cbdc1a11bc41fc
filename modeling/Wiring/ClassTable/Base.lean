import Wiring.ClassTable.Basic
/-!
# The base table

The classes that every table starts from: the root class, the boxes of the primitives, and a
handful of general and generic ones to build on. Some of them have a part in the rules (the
root, the boxes, the supertypes of arrays) and are known by number.
-/

namespace Wiring

namespace ClassId

def object : ClassId := ⟨0⟩
def serializable : ClassId := ⟨1⟩
def cloneable : ClassId := ⟨2⟩
def charSequence : ClassId := ⟨3⟩
def comparable : ClassId := ⟨4⟩
def string : ClassId := ⟨5⟩
def number : ClassId := ⟨6⟩
def boolean : ClassId := ⟨7⟩
def character : ClassId := ⟨8⟩
def byte : ClassId := ⟨9⟩
def short : ClassId := ⟨10⟩
def integer : ClassId := ⟨11⟩
def long : ClassId := ⟨12⟩
def float : ClassId := ⟨13⟩
def double : ClassId := ⟨14⟩
def iterable : ClassId := ⟨15⟩
def collection : ClassId := ⟨16⟩
def list : ClassId := ⟨17⟩
def arrayList : ClassId := ⟨18⟩
def set : ClassId := ⟨19⟩
def hashSet : ClassId := ⟨20⟩
def map : ClassId := ⟨21⟩
def hashMap : ClassId := ⟨22⟩

/-- The classes with a name of their own in the rules, the root first. -/
def wellKnown : List ClassId :=
  [object, string, number, cloneable, serializable, boolean, byte, short, character, integer,
    long, float, double]

/-- The declared type without arguments. -/
def ty (c : ClassId) : Ty := .declared c []

end ClassId

/-- The class that wraps a primitive. -/
def Primitive.box : Primitive → ClassId
  | .boolean => .boolean
  | .byte => .byte
  | .short => .short
  | .char => .character
  | .int => .integer
  | .long => .long
  | .float => .float
  | .double => .double

/-- The primitive that a class wraps. -/
def ClassId.unboxed? (c : ClassId) : Option Primitive := Primitive.all.find? (·.box == c)

namespace ClassTable

private def cls (name : String) (params : List TypeVarId) (superclass : Option Ty)
    (interfaces : List Ty) : ClassDecl :=
  ⟨name, .classKind, params, superclass, interfaces⟩

private def interface (name : String) (params : List TypeVarId) (interfaces : List Ty) :
    ClassDecl :=
  ⟨name, .interfaceKind, params, none, interfaces⟩

/-- A box: serializable, and comparable with itself. -/
private def box (name : String) (c superclass : ClassId) : ClassDecl :=
  cls name [] (some superclass.ty) [ClassId.serializable.ty, .declared .comparable [c.ty]]

/-- A generic class applied to variables. -/
private def applied (c : ClassId) (vs : List TypeVarId) : Ty := .declared c (vs.map .var)

def base : ClassTable where
  classes := #[
    cls "java.lang.Object" [] none [],
    interface "java.io.Serializable" [] [],
    interface "java.lang.Cloneable" [] [],
    interface "java.lang.CharSequence" [] [],
    interface "java.lang.Comparable" [⟨0⟩] [],
    cls "java.lang.String" [] (some ClassId.object.ty)
      [ClassId.serializable.ty, .declared .comparable [ClassId.string.ty],
        ClassId.charSequence.ty],
    cls "java.lang.Number" [] (some ClassId.object.ty) [ClassId.serializable.ty],
    box "java.lang.Boolean" .boolean .object,
    box "java.lang.Character" .character .object,
    box "java.lang.Byte" .byte .number,
    box "java.lang.Short" .short .number,
    box "java.lang.Integer" .integer .number,
    box "java.lang.Long" .long .number,
    box "java.lang.Float" .float .number,
    box "java.lang.Double" .double .number,
    interface "java.lang.Iterable" [⟨1⟩] [],
    interface "java.util.Collection" [⟨2⟩] [applied .iterable [⟨2⟩]],
    interface "java.util.List" [⟨3⟩] [applied .collection [⟨3⟩]],
    cls "java.util.ArrayList" [⟨4⟩] (some ClassId.object.ty)
      [applied .list [⟨4⟩], ClassId.cloneable.ty, ClassId.serializable.ty],
    interface "java.util.Set" [⟨5⟩] [applied .collection [⟨5⟩]],
    cls "java.util.HashSet" [⟨6⟩] (some ClassId.object.ty)
      [applied .set [⟨6⟩], ClassId.cloneable.ty, ClassId.serializable.ty],
    interface "java.util.Map" [⟨7⟩, ⟨8⟩] [],
    cls "java.util.HashMap" [⟨9⟩, ⟨10⟩] (some ClassId.object.ty)
      [applied .map [⟨9⟩, ⟨10⟩], ClassId.cloneable.ty, ClassId.serializable.ty]]
  typeVars := #[
    ⟨"T", [ClassId.object.ty]⟩,
    ⟨"T", []⟩,
    ⟨"E", []⟩,
    ⟨"E", []⟩,
    ⟨"E", []⟩,
    ⟨"E", []⟩,
    ⟨"E", []⟩,
    ⟨"K", []⟩,
    ⟨"V", []⟩,
    ⟨"K", []⟩,
    ⟨"V", []⟩]

end ClassTable

end Wiring
