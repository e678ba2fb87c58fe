import Linkage.Instantiation
import Linkage.Scope.Alias
import Linkage.Scope.Resolution

/-!
# Definitions that hold no module

Each function checks one definition against the scope and returns the scope with what it declares.
Only the outcome of the definitions before it matters: a definition sees neither itself nor any
later one.
-/

set_option autoImplicit false

namespace Linkage.Scope

def report (scope : Scope) (outer : List Enclosing) (event : ScopeEvent) : Traced Fault Unit :=
  .emit (.scope outer.length scope.path event)

def addType (scope : Scope) (outer : List Enclosing) (type : TypeExpr) : Traced Fault Scope := do
  let item ← .ofExcept (scope.resolveType type)
  let (index, next) ← .ofExcept (scope.declare .type item)
  scope.report outer (.declaredType index item)
  return next

def addImport (scope : Scope) (outer : List Enclosing) (name : Name) (type : TypeExpr) :
    Traced Fault Scope := do
  let item ← .ofExcept (scope.resolveType type)
  let (index, next) ← .ofExcept (scope.declareImport name item)
  scope.report outer (.declaredImport name item.kind index)
  return next

def addModule (scope : Scope) (outer : List Enclosing) (type : ModuleType) :
    Traced Fault Scope := do
  let (index, next) ← .ofExcept (scope.declare .module (.ofModule type))
  scope.report outer (.declaredModule index type)
  return next

def addInstance (scope : Scope) (outer : List Enclosing) (type : InstanceType) :
    Traced Fault Scope := do
  let (index, next) ← .ofExcept (scope.declare .inst (.inst type))
  scope.report outer (.declaredInstance index type)
  return next

/-- Declares an instance of one of the scope's modules. Repeated argument names are refused before
anything they refer to is looked at. -/
def addInstantiation (scope : Scope) (outer : List Enclosing) (moduleIndex : Nat)
    (arguments : List (Name × ItemRef)) : Traced Fault Scope := do
  .ofExcept (Instantiation.checkNames scope.name arguments)
  let type ← .ofExcept (scope.moduleAt moduleIndex)
  let items ← .ofExcept (scope.resolveItems .argument arguments)
  let exports ← type.instantiate scope.name items
  scope.addInstance outer exports

def addTuple (scope : Scope) (outer : List Enclosing) (exports : List (Name × ItemRef)) :
    Traced Fault Scope := do
  .ofExcept (Instantiation.checkNames scope.name exports)
  let items ← .ofExcept (scope.resolveItems .tupleExport exports)
  let type ← .ofExcept (InstanceType.ofItems scope.name items)
  scope.addInstance outer type

def addExport (scope : Scope) (outer : List Enclosing) (name : Name) (item : ItemRef) :
    Traced Fault Scope := do
  let type ← .ofExcept (scope.resolveItem .moduleExport item)
  let next ← .ofExcept (scope.declareExport name type)
  scope.report outer (.declaredExport name type)
  return next

end Linkage.Scope
