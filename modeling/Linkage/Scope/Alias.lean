import Linkage.Scope.Basic
import Linkage.Traced

/-!
# Aliases

An alias declares an item that already exists elsewhere: an export of an instance of the scope, or a
module or type of an enclosing scope. The enclosing scopes are listed from the inside out, and each
shows only the entries it had when the next inner scope was made.
-/

set_option autoImplicit false

namespace Linkage.Scope

def findExport (scope : Scope) (target : ExportAlias) : Except Fault ItemType := do
  let exports ← scope.instanceAt target.instanceIndex
  if target.kind.isDefinition then
    match exports.lookup target.name with
    | none => scope.reject (.unboundExport target.instanceIndex target.name)
    | some item =>
        if KindCode.ofKind item.kind = target.kind then .ok item
        else scope.reject (.exportKind target.name target.instanceIndex item.kind target.kind)
  else
    scope.reject (.exportedType target.name)

def aliasExport (scope : Scope) (outer : List Enclosing) (target : ExportAlias) :
    Traced Fault (Nat × Scope) := do
  let item ← .ofExcept (scope.findExport target)
  let (index, next) ← .ofExcept (scope.declare item.kind item)
  .emit (.scope outer.length scope.path (.aliasedExport target index item))
  return (index, next)

/-- Finds the item that an outer alias names, with its kind and the name of its scope. -/
def findOuter (scope : Scope) (outer : List Enclosing) (target : OuterAlias) :
    Except Fault (ItemKind × Name × ItemType) :=
  match target.kind.outerKind? with
  | none => scope.reject (.outerKind target.kind)
  | some kind =>
      match outer[target.depth]? with
      | none => scope.reject (.outerDepth target.depth outer.length)
      | some ancestor =>
          match ancestor.scope.lookup kind target.index (ancestor.visible kind) with
          | none =>
              scope.reject (.unboundOuter kind target.index ancestor.scope.name
                (ancestor.visible kind))
          | some item => .ok (kind, ancestor.scope.name, item)

def aliasOuter (scope : Scope) (outer : List Enclosing) (target : OuterAlias) :
    Traced Fault (Nat × Scope) := do
  let (kind, ancestor, item) ← .ofExcept (scope.findOuter outer target)
  let (index, next) ← .ofExcept (scope.declare kind item)
  .emit (.scope outer.length scope.path (.aliasedOuter target ancestor index item))
  return (index, next)

end Linkage.Scope
