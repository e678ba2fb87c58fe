import Linkage.Fault
import Linkage.Path

/-!
# Scopes

A scope is a module while it is checked: seven index spaces that only grow, the names imported and
exported so far, and a state. Operations return the changed scope; one that fails returns no scope,
so the caller still has the scope as it was.

Lengths, indices and depths are natural numbers, so that none of them wraps. With counters of 32
bits the same holds as long as no space has 2^32 entries and no module is nested 2^32 deep.
-/

set_option autoImplicit false

namespace Linkage

structure Spaces where
  funcs : List ItemType := []
  tables : List ItemType := []
  memories : List ItemType := []
  globals : List ItemType := []
  instances : List ItemType := []
  modules : List ItemType := []
  types : List ItemType := []

namespace Spaces

def get (spaces : Spaces) : ItemKind → List ItemType
  | .func => spaces.funcs
  | .table => spaces.tables
  | .memory => spaces.memories
  | .global => spaces.globals
  | .inst => spaces.instances
  | .module => spaces.modules
  | .type => spaces.types

def push (spaces : Spaces) (item : ItemType) : ItemKind → Spaces
  | .func => { spaces with funcs := spaces.funcs ++ [item] }
  | .table => { spaces with tables := spaces.tables ++ [item] }
  | .memory => { spaces with memories := spaces.memories ++ [item] }
  | .global => { spaces with globals := spaces.globals ++ [item] }
  | .inst => { spaces with instances := spaces.instances ++ [item] }
  | .module => { spaces with modules := spaces.modules ++ [item] }
  | .type => { spaces with types := spaces.types ++ [item] }

/-- The space of the entry is longer by it; the other spaces are the same. -/
theorem get_push (spaces : Spaces) (item : ItemType) (kind other : ItemKind) :
    (spaces.push item kind).get other =
      if other = kind then spaces.get kind ++ [item] else spaces.get other := by
  cases kind <;> cases other <;> rfl

end Spaces

abbrev Lengths := ItemKind → Nat

structure Scope where
  path : Path
  state : ScopeState := .empty
  spaces : Spaces := {}
  imports : InstanceType := []
  exports : InstanceType := []

/-- A scope around another one, as far as the inner one sees it: the lengths of its spaces when the
inner scope was made. -/
structure Enclosing where
  scope : Scope
  visible : Lengths

namespace Scope

variable {α : Type}

def name (scope : Scope) : Name := scope.path.text

def length (scope : Scope) (kind : ItemKind) : Nat := (scope.spaces.get kind).length

def lengths (scope : Scope) : Lengths := fun kind => scope.length kind

/-- The scope as a scope made now inside it sees it. -/
def seen (scope : Scope) : Enclosing := ⟨scope, scope.lengths⟩

def reject (scope : Scope) (cause : Cause) : Except Fault α := .error (.invalid ⟨scope.name, cause⟩)

/-- The entry at an index, if the index is below the visible length. -/
def lookup (scope : Scope) (kind : ItemKind) (index visible : Nat) : Option ItemType :=
  if index < visible then (scope.spaces.get kind)[index]? else none

def resolveVisible (scope : Scope) (kind : ItemKind) (index visible : Nat) :
    Except Fault ItemType :=
  match scope.lookup kind index visible with
  | some item => .ok item
  | none => scope.reject (.unboundIndex kind index visible)

def resolve (scope : Scope) (kind : ItemKind) (index : Nat) : Except Fault ItemType :=
  scope.resolveVisible kind index (scope.length kind)

def instanceAt (scope : Scope) (index : Nat) : Except Fault InstanceType := do
  let item ← scope.resolve .inst index
  match item.instance? with
  | some type => .ok type
  | none => .error (.misuse (.wrongEntry .inst item.kind))

def moduleAt (scope : Scope) (index : Nat) : Except Fault ModuleType := do
  let item ← scope.resolve .module index
  match item.module? with
  | some type => .ok type
  | none => .error (.misuse (.wrongEntry .module item.kind))

def typeAt (scope : Scope) (index : Nat) : Except Fault ItemType := scope.resolve .type index

/-- Starts the check of the scope's module; a scope is used for one module only. -/
def start (scope : Scope) : Except Fault Scope :=
  match scope.state with
  | .empty => .ok { scope with state := .accumulating }
  | _ => .error (.misuse (.alreadyValidated scope.name))

def requireAccumulating (scope : Scope) : Except Fault Unit :=
  match scope.state with
  | .accumulating => .ok ()
  | state => .error (.misuse (.notAccepting scope.name state))

/-- Ends the check. The names collected become the module type, the spaces stay. -/
def freeze (scope : Scope) : Except Fault (ModuleType × Scope) := do
  scope.requireAccumulating
  return (⟨scope.imports, scope.exports⟩,
    { scope with state := .frozen, imports := [], exports := [] })

/-- Gives the scope up, unless its check has ended well. -/
def fail (scope : Scope) : Scope :=
  match scope.state with
  | .frozen => scope
  | _ => { scope with state := .failed }

/-- Appends an item to a space and returns its index. The type space takes items of every kind, the
other ones only their own. -/
def declare (scope : Scope) (kind : ItemKind) (item : ItemType) : Except Fault (Nat × Scope) := do
  scope.requireAccumulating
  if kind = .type ∨ item.kind = kind then
    return (scope.length kind, { scope with spaces := scope.spaces.push item kind })
  else
    .error (.misuse (.wrongSpace kind item.kind))

def declareImport (scope : Scope) (name : Name) (item : ItemType) :
    Except Fault (Nat × Scope) := do
  scope.requireAccumulating
  if Entries.has scope.imports name then
    scope.reject (.duplicateItem .imports name)
  else
    let named := { scope with imports := scope.imports ++ [(name, item)] }
    named.declare item.kind item

def declareExport (scope : Scope) (name : Name) (item : ItemType) : Except Fault Scope := do
  scope.requireAccumulating
  if Entries.has scope.exports name then
    scope.reject (.duplicateItem .exports name)
  else
    return { scope with exports := scope.exports ++ [(name, item)] }

end Scope

end Linkage
