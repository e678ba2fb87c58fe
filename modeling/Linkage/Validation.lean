import Linkage.Scope.Declaration

/-!
# Validation of module trees

A module is checked in a single pass over its definitions. A nested module is checked where it
stands, in a scope of its own that sees the enclosing scopes as they are at that point, and is then
declared with the type found. A module may have at most a given number of enclosing modules. Events
are kept only where somebody listens; the result is the same without them.
-/

set_option autoImplicit false

namespace Linkage

/-- The number of enclosing modules allowed where nothing else is said. -/
def defaultNesting : Nat := 64

/-- How modules are checked: how many enclosing modules a module may have, and whether somebody
listens to the events. -/
structure Validation.Options where
  nesting : Nat := defaultNesting
  listening : Bool := true

def ModuleDef.path (module : ModuleDef) : Path :=
  .root (if module.name.isEmpty then "<module>" else module.name)

/-- The path of a module nested here. A module without a name goes by the index it is going to
have. -/
def Scope.nestedPath (scope : Scope) (name : Name) : Path :=
  .nested scope.path <|
    if name.isEmpty then "module[" ++ Text.ofNat (scope.length .module) ++ "]" else name

namespace Validation

def checkNesting (options : Options) (outer : List Enclosing) (scope : Scope) :
    Except Fault Unit :=
  if outer.length ≤ options.nesting then .ok ()
  else scope.reject (.nesting outer.length options.nesting)

/-- Reports a validation error that ends the check of a scope. Other faults pass unreported. -/
def reportingFailure {α : Type} (depth : Nat) (path : Path) (run : Traced Fault α) :
    Traced Fault α :=
  match run.result with
  | .error (.invalid error) =>
      ⟨run.trace ++ .one (.scope depth path (.failed error)), .error (.invalid error)⟩
  | _ => run

/-- Checks one module in a new scope. The definitions are checked by `body`. -/
def inScope (options : Options) (outer : List Enclosing) (path : Path)
    (body : Scope → Traced Fault Scope) : Traced Fault ModuleType :=
  .heard options.listening do
    let scope ← .ofExcept (Scope.start { path := path })
    scope.report outer .started
    reportingFailure outer.length path do
      .ofExcept (checkNesting options outer scope)
      let filled ← body scope
      let (type, _) ← .ofExcept filled.freeze
      scope.report outer (.finished type)
      return type

mutual

def define (options : Options) (outer : List Enclosing) (scope : Scope) :
    Definition → Traced Fault Scope
  | .typeItem type => scope.addType outer type
  | .importItem name type => scope.addImport outer name type
  | .nested name definitions => do
      let around := scope.seen :: outer
      let type ← inScope options around (scope.nestedPath name) fun child =>
        defineAll options around child definitions
      scope.addModule outer type
  | .absent => .ofExcept (.error (.missingModule scope.name))
  | .instantiate moduleIndex arguments => scope.addInstantiation outer moduleIndex arguments
  | .tuple exports => scope.addTuple outer exports
  | .exportAlias target => do return (← scope.aliasExport outer target).2
  | .outerAlias target => do return (← scope.aliasOuter outer target).2
  | .exportItem name item => scope.addExport outer name item

def defineAll (options : Options) (outer : List Enclosing) (scope : Scope) :
    List Definition → Traced Fault Scope
  | [] => pure scope
  | definition :: rest => do
      scope.report outer (.visiting definition)
      let next ← define options outer scope definition
      defineAll options outer next rest

end

end Validation

namespace ModuleDef

def validate (options : Validation.Options) (module : ModuleDef) : Traced Fault ModuleType :=
  Validation.inScope options [] module.path fun scope =>
    Validation.defineAll options [] scope module.definitions

/-- Checks a module as if it were nested in a scope at this point. -/
def validateIn (options : Validation.Options) (outer : List Enclosing) (parent : Scope)
    (module : ModuleDef) : Traced Fault ModuleType :=
  let around := parent.seen :: outer
  Validation.inScope options around (parent.nestedPath module.name) fun scope =>
    Validation.defineAll options around scope module.definitions

end ModuleDef

abbrev Verdict := Except ValidationError ModuleType

/-- Reads a validation error as a verdict; other faults stay faults. -/
def Verdict.ofResult : Except Fault ModuleType → Except Fault Verdict
  | .ok type => .ok (.ok type)
  | .error (.invalid error) => .ok (.error error)
  | .error fault => .error fault

/-- Checks modules independently of each other. The verdicts are in the order of the modules; a
fault that is no validation error ends the whole, and of several the first one counts. -/
def Verdict.ofSiblings (validate : ModuleDef → Traced Fault ModuleType) :
    List ModuleDef → Except Fault (List Verdict)
  | [] => .ok []
  | module :: rest => do
      let verdict ← Verdict.ofResult (validate module).result
      return verdict :: (← Verdict.ofSiblings validate rest)

end Linkage
