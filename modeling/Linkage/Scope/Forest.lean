import Linkage.Validation

/-!
# Forests of scopes

Scopes that are used side by side form a forest: each has a number, and possibly a parent with a
smaller number, of which it sees the entries that the parent had when the scope was made. The parent
itself goes on changing. An operation acts on one scope and returns an answer; if it fails, the
forest is as before.
-/

set_option autoImplicit false

namespace Linkage

inductive ScopeAction where
  | start
  | freeze
  | fail
  | declare (kind : ItemKind) (item : ItemType)
  | declareImport (name : Name) (item : ItemType)
  | declareExport (name : Name) (item : ItemType)
  | resolve (kind : ItemKind) (index : Nat)
  | resolveVisible (kind : ItemKind) (index visible : Nat)
  /-- Without a visible length the whole space is seen. -/
  | lookup (kind : ItemKind) (index : Nat) (visible : Option Nat)
  | length (kind : ItemKind)
  | instanceAt (index : Nat)
  | moduleAt (index : Nat)
  | typeAt (index : Nat)
  /-- Ends with an error that the caller words. -/
  | reject (code : UInt32) (message : Text)
  | aliasExport (target : ExportAlias)
  | aliasOuter (target : OuterAlias)
  /-- Checks a module as if it were nested here. -/
  | validate (module : ModuleDef)
  /-- Checks modules independently, each as if it were nested here. -/
  | siblings (modules : List ModuleDef)

inductive ScopeAnswer where
  | done
  | created (depth : Nat) (name : Name) (parent : Option (Name × Lengths))
  | index (index : Nat)
  | length (length : Nat)
  | item (item : ItemType)
  | found (item : Option ItemType)
  | instanceType (type : InstanceType)
  | moduleType (type : ModuleType)
  | verdicts (verdicts : List Verdict)

def ScopeAction.run (options : Validation.Options) (outer : List Enclosing) (scope : Scope) :
    ScopeAction → Traced Fault (ScopeAnswer × Scope)
  | .start => do return (.done, ← .ofExcept scope.start)
  | .freeze => do
      let (type, next) ← .ofExcept scope.freeze
      return (.moduleType type, next)
  | .fail => return (.done, scope.fail)
  | .declare kind item => do
      let (index, next) ← .ofExcept (scope.declare kind item)
      return (.index index, next)
  | .declareImport name item => do
      let (index, next) ← .ofExcept (scope.declareImport name item)
      return (.index index, next)
  | .declareExport name item => do return (.done, ← .ofExcept (scope.declareExport name item))
  | .resolve kind index => do return (.item (← .ofExcept (scope.resolve kind index)), scope)
  | .resolveVisible kind index visible => do
      return (.item (← .ofExcept (scope.resolveVisible kind index visible)), scope)
  | .lookup kind index visible =>
      return (.found (scope.lookup kind index (visible.getD (scope.length kind))), scope)
  | .length kind => return (.length (scope.length kind), scope)
  | .instanceAt index => do return (.instanceType (← .ofExcept (scope.instanceAt index)), scope)
  | .moduleAt index => do return (.moduleType (← .ofExcept (scope.moduleAt index)), scope)
  | .typeAt index => do return (.item (← .ofExcept (scope.typeAt index)), scope)
  | .reject code message => .ofExcept (scope.reject (.reported code message))
  | .aliasExport target => do
      let (index, next) ← scope.aliasExport outer target
      return (.index index, next)
  | .aliasOuter target => do
      let (index, next) ← scope.aliasOuter outer target
      return (.index index, next)
  | .validate module => do
      return (.moduleType (← module.validateIn options outer scope), scope)
  | .siblings modules => do
      let verdicts ← .ofExcept <|
        Verdict.ofSiblings (ModuleDef.validateIn options outer scope) modules
      return (.verdicts verdicts, scope)

structure ParentLink where
  parent : Nat
  visible : Lengths

structure Forest where
  scopes : List (Scope × Option ParentLink) := []

namespace Forest

def scope? (forest : Forest) (number : Nat) : Option Scope := (forest.scopes[number]?).map Prod.fst

/-- The scopes around a scope as they are now, from the inside out, each with what is visible of it
to the next inner one. -/
def enclosing (forest : Forest) (number : Nat) : List Enclosing :=
  match forest.scopes[number]? with
  | some (_, some link) =>
      match forest.scope? link.parent with
      | some parent =>
          if link.parent < number then ⟨parent, link.visible⟩ :: forest.enclosing link.parent
          else []
      | none => []
  | _ => []
termination_by number

/-- Makes a scope without a parent, or with one that is visible as far as it has got. -/
def create (forest : Forest) (name : Name) : Option Nat → Forest × Traced Fault ScopeAnswer
  | none => (⟨forest.scopes ++ [({ path := .root name }, none)]⟩, pure (.created 0 name none))
  | some number =>
      match forest.scope? number with
      | none => (forest, .ofExcept (.error (.misuse (.unknownScope number))))
      | some parent =>
          (⟨forest.scopes ++ [({ path := .root name }, some ⟨number, parent.lengths⟩)]⟩,
            pure (.created ((forest.enclosing number).length + 1) name
              (some (parent.name, parent.lengths))))

def act (options : Validation.Options) (forest : Forest) (number : Nat) (action : ScopeAction) :
    Forest × Traced Fault ScopeAnswer :=
  match forest.scopes[number]? with
  | none => (forest, .ofExcept (.error (.misuse (.unknownScope number))))
  | some (scope, link) =>
      let run := action.run options (forest.enclosing number) scope
      match run.result with
      | .error fault => (forest, ⟨run.trace, .error fault⟩)
      | .ok (answer, next) => (⟨forest.scopes.set number (next, link)⟩, ⟨run.trace, .ok answer⟩)

inductive Op where
  | create (name : Name) (parent : Option Nat)
  | act (number : Nat) (action : ScopeAction)

def step (options : Validation.Options) (forest : Forest) : Op → Forest × Traced Fault ScopeAnswer
  | .create name parent => forest.create name parent
  | .act number action => forest.act options number action

/-- The number of the scope that an operation makes or acts on. -/
def target (forest : Forest) : Op → Nat
  | .create _ _ => forest.scopes.length
  | .act number _ => number

def run (options : Validation.Options) (forest : Forest) (ops : List Op) : Forest :=
  ops.foldl (fun current op => (current.step options op).1) forest

end Forest

end Linkage
