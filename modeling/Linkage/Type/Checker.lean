import Linkage.Type.Mismatch

/-!
# Checkers

A checker compares types, one pair after the other. It keeps the entries that lead to the two types
it is looking at, and the text of the mismatch that it has found last. Three functions walk through
the types: one for items, one for families of entries and one for modules. They put an entry on the
path before they look at its types and take it off again afterwards.

The walk remembers nothing, but passes over two parts that are one object. Types are values here, so
`shared` says of each path whether equal parts found there are one object.
-/

set_option autoImplicit false

namespace Linkage

/-- The state of a checker. The path begins with the outermost entry; the text is empty if no
mismatch has been found since the last comparison began. -/
structure Checker where
  path : List Step := []
  mismatch : Text := []

abbrev Checking := StateM Checker Bool

namespace Checking

def fail (reason : Reason) : Checking := do
  modify fun checker => { checker with mismatch := Mismatch.text ⟨checker.path, reason⟩ }
  return false

def andThen (first second : Checking) : Checking := do
  if ← first then second else return false

def inOrder {α : Type} (check : α → Checking) : List α → Checking
  | [] => return true
  | part :: rest => andThen (check part) (inOrder check rest)

/-- Compares the types of an entry; meanwhile the entry is on the path. -/
def within (step : Step) (check : Checking) : Checking := do
  modify fun checker => { checker with path := checker.path ++ [step] }
  let matched ← check
  modify fun checker => { checker with path := checker.path.dropLast }
  return matched

def unlessShared (shared : List Step → Bool) (found expected : ItemType) (check : Checking) :
    Checking := do
  if shared (← get).path && decide (found = expected) then return true else check

mutual

def items (shared : List Step → Bool) : ItemType → ItemType → Checking
  | .core found, .core expected =>
      if found.kind ≠ expected.kind then fail (.kind found.kind expected.kind)
      else if found ≠ expected then fail (.core found expected)
      else return true
  | .inst found, .inst expected =>
      unlessShared shared (.inst found) (.inst expected) (entries shared .exports found expected)
  | .module imports exports, .module otherImports otherExports =>
      unlessShared shared (.module imports exports) (.module otherImports otherExports)
        (modules shared ⟨imports, exports⟩ ⟨otherImports, otherExports⟩)
  | found, expected => fail (.kind found.kind expected.kind)
termination_by found expected => (sizeOf found + sizeOf expected, 1)

def entries (shared : List Step → Bool) (role : Role) (offered wanted : InstanceType) : Checking :=
  inOrder (fun ⟨entry, _inside⟩ =>
    match _among : offered.lookup entry.1 with
    | none => fail (.missing role entry.1)
    | some offer => within ⟨role, entry.1⟩ (items shared offer entry.2))
    (Entries.sorted wanted).attach
termination_by (sizeOf offered + sizeOf wanted, 0)
decreasing_by
  have offerSmaller := ItemType.sizeOf_entry_lt (Entries.mem_of_lookup _among)
  have wantSmaller := ItemType.sizeOf_entry_lt (Entries.mem_of_mem_sorted _inside)
  exact Prod.Lex.left _ _ (Nat.add_lt_add offerSmaller wantSmaller)

/-- Compares the exports and then, with the ends exchanged, the imports. -/
def modules (shared : List Step → Bool) : ModuleType → ModuleType → Checking
  | ⟨imports, exports⟩, ⟨otherImports, otherExports⟩ =>
      andThen (entries shared .exports exports otherExports)
        (entries shared .imports otherImports imports)
termination_by found expected => (sizeOf found + sizeOf expected, 0)

end

end Checking

inductive Comparison where
  | items (found expected : ItemType)
  | instances (found expected : InstanceType)
  | modules (found expected : ModuleType)

namespace Comparison

def found : Comparison → ItemType
  | .items found _ => found
  | .instances found _ => .inst found
  | .modules found _ => .ofModule found

def expected : Comparison → ItemType
  | .items _ expected => expected
  | .instances _ expected => .inst expected
  | .modules _ expected => .ofModule expected

/-- Compares the types. Only items are passed over if they are one object; instance types and module
types are looked into. -/
def walk (shared : List Step → Bool) : Comparison → Checking
  | .items found expected => Checking.items shared found expected
  | .instances found expected => Checking.entries shared .exports found expected
  | .modules found expected => Checking.modules shared found expected

def run (shared : List Step → Bool) (comparison : Comparison) : Checking := do
  set ({} : Checker)
  comparison.walk shared

/-- A comparison by a checker of its own. Instance types and module types are not compared at all if
they are one object. -/
def holds (shared : List Step → Bool) : Comparison → Bool
  | .items found expected => ((items found expected).run shared {}).1
  | .instances found expected =>
      (shared [] && decide (found = expected)) || ((instances found expected).run shared {}).1
  | .modules found expected =>
      (shared [] && decide (found = expected)) || ((modules found expected).run shared {}).1

end Comparison

namespace Checker

def ask (shared : List Step → Bool) (comparison : Comparison) : StateM Checker (Bool × Text) := do
  let matched ← comparison.run shared
  return (matched, (← get).mismatch)

def askAll : List ((List Step → Bool) × Comparison) → StateM Checker (List (Bool × Text))
  | [] => return []
  | (shared, comparison) :: rest => do
      let answer ← ask shared comparison
      return answer :: (← askAll rest)

end Checker

end Linkage
