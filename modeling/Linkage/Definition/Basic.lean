import Linkage.Type.Basic

/-!
# Module definitions

A module is a name and a list of definitions in the order in which they are checked. Each definition
declares an item in one of the module's index spaces, or exports one, and refers to earlier items by
their index.
-/

set_option autoImplicit false

namespace Linkage

/-- How a definition states a type: in full, by the index of a declared type of the stated kind, or
by entries that are stated in turn. Unlike those of a type, the entries keep their order and
repetitions. -/
inductive TypeExpr where
  | complete (type : ItemType)
  | indexed (kind : KindCode) (index : Nat)
  | inst (exports : List (Name × TypeExpr))
  | module (imports exports : List (Name × TypeExpr))

structure ItemRef where
  kind : KindCode
  index : Nat
deriving DecidableEq, Repr

structure ExportAlias where
  instanceIndex : Nat
  name : Name
  kind : KindCode
deriving DecidableEq, Repr

/-- An item of an enclosing module; depth zero is the module directly around. -/
structure OuterAlias where
  depth : Nat
  index : Nat
  kind : KindCode
deriving DecidableEq, Repr

inductive Definition where
  | typeItem (type : TypeExpr)
  | importItem (name : Name) (type : TypeExpr)
  /-- A module inside the module; an empty name stands for no name. -/
  | nested (name : Name) (definitions : List Definition)
  /-- The place of a nested module that was never given. -/
  | absent
  | instantiate (moduleIndex : Nat) (arguments : List (Name × ItemRef))
  /-- An instance put together from items of the module. -/
  | tuple (exports : List (Name × ItemRef))
  | exportAlias (target : ExportAlias)
  | outerAlias (target : OuterAlias)
  | exportItem (name : Name) (item : ItemRef)

/-- A module of its own; an empty name stands for no name. -/
structure ModuleDef where
  name : Name := []
  definitions : List Definition := []

namespace ModuleDef

def size (module : ModuleDef) : Nat := module.definitions.length

def define (module : ModuleDef) (definition : Definition) : ModuleDef :=
  { module with definitions := module.definitions ++ [definition] }

def asNested (module : ModuleDef) : Definition := .nested module.name module.definitions

end ModuleDef

end Linkage
