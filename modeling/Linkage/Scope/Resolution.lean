import Linkage.Scope.Basic

/-!
# Resolution of stated types and references

A stated type becomes an item type, and a reference the type of the item it names. Complete types
are searched for defects; indexed ones are taken from the scope and must be of the stated kind.
-/

set_option autoImplicit false

namespace Linkage.Scope

def checkType (scope : Scope) (type : ItemType) : Except Fault ItemType :=
  match type.defect? with
  | none => .ok type
  | some defect => scope.reject (.defect defect)

/-- The declared type at an index, if it is of the stated kind. -/
def typeOfKind (scope : Scope) (kind : KindCode) (index : Nat) : Except Fault ItemType := do
  let type ← scope.typeAt index
  if KindCode.ofKind type.kind = kind then .ok type
  else scope.reject (.typeKind index type.kind kind)

mutual

def resolveType (scope : Scope) : TypeExpr → Except Fault ItemType
  | .complete type => scope.checkType type
  | .indexed kind index => scope.typeOfKind kind index
  | .inst exports => do return .inst (← scope.resolveEntries .exports [] exports)
  | .module imports exports => do
      let importTypes ← scope.resolveEntries .imports [] imports
      let exportTypes ← scope.resolveEntries .exports [] exports
      return .module importTypes exportTypes

/-- Resolves entries in order. A name that has been seen is refused after its type is resolved. -/
def resolveEntries (scope : Scope) (role : Role) (seen : List Name) :
    List (Name × TypeExpr) → Except Fault (List (Name × ItemType))
  | [] => .ok []
  | (name, type) :: rest => do
      let item ← scope.resolveType type
      if name ∈ seen then scope.reject (.duplicateEntry role name)
      else return (name, item) :: (← scope.resolveEntries role (name :: seen) rest)

end

/-- The type of a referenced item; types themselves cannot be used as items. -/
def resolveItem (scope : Scope) (use : Use) (item : ItemRef) : Except Fault ItemType :=
  if item.kind.isDefinition then
    match item.kind.kind? with
    | some kind => scope.resolve kind item.index
    | none => .error (.misuse (.unknownKind item.kind))
  else
    scope.reject (.typeReference item.index use)

def resolveItems (scope : Scope) (use : Use) :
    List (Name × ItemRef) → Except Fault (List (Name × ItemType))
  | [] => .ok []
  | (name, item) :: rest => do
      let type ← scope.resolveItem use item
      return (name, type) :: (← scope.resolveItems use rest)

end Linkage.Scope
