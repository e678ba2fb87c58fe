import Linkage.Host
import Linkage.Validation

/-!
# Registry of modules and host instances

Modules and host instances are registered under names that they share between them. A module is
validated when its type is first asked for, or with all others, and the verdict is kept. Validating
all modules reports every invalid one, also those found earlier.
-/

set_option autoImplicit false

namespace Linkage

inductive LookupReason where
  | unnamed
  | collision
  | noModule
  | noHost
  /-- A reason that the caller words. -/
  | reported (message : Text)
deriving DecidableEq, Repr

structure LookupError where
  item : Name
  reason : LookupReason
deriving DecidableEq, Repr

namespace LookupError

def message (error : LookupError) : Text :=
  match error.reason with
  | .unnamed => "Registered modules need a name"
  | .collision => "Module name collision"
  | .noModule => "No module with this name was registered"
  | .noHost => "No host instance with this name was registered"
  | .reported message => message

def text (error : LookupError) : Text :=
  "Lookup error for " ++ Text.quoted error.item ++ ": " ++ error.message

end LookupError

structure Rejection where
  errors : List ValidationError
deriving DecidableEq

namespace Rejection

def message (rejection : Rejection) : Text :=
  Text.ofNat rejection.errors.length ++ " module(s) failed validation"

def text (rejection : Rejection) : Text :=
  rejection.message ++ rejection.errors.flatMap fun error => ("\n  - " ++ error.text : Text)

end Rejection

inductive LinkFault where
  | lookup (error : LookupError)
  | rejected (rejection : Rejection)
  /-- No module was given where one is registered. -/
  | noModuleGiven
  | host (fault : HostFault)
  | check (fault : Fault)
deriving DecidableEq

def LinkFault.message : LinkFault → Text
  | .lookup error => error.message
  | .rejected rejection => rejection.message
  | .noModuleGiven => "Cannot register an empty module definition"
  | .host fault => fault.message
  | .check fault => fault.message

structure Registered where
  definition : ModuleDef
  verdict : Option Verdict := none

namespace Registered

def isPending (module : Registered) : Bool := module.verdict.isNone

def verdictEvent (module : Registered) : Verdict → Event
  | .ok type => .link (.validatedModule module.definition.name type)
  | .error error => .link (.failedModule module.definition.name error)

/-- The verdict on a module, found now if it is pending. A fault that is no verdict is not kept. -/
def settle (options : Validation.Options) (module : Registered) :
    Registered × Traced Fault Verdict :=
  match module.verdict with
  | some verdict => (module, pure verdict)
  | none =>
      let run := module.definition.validate options
      match Verdict.ofResult run.result with
      | .error fault => (module, ⟨run.trace, .error fault⟩)
      | .ok verdict =>
          ({ module with verdict := some verdict },
            ⟨run.trace ++ .one (module.verdictEvent verdict), .ok verdict⟩)

/-- Settles modules one after the other. A fault leaves the rest as it is. -/
def settleAll (options : Validation.Options) : List Registered → List Registered × Traced Fault Unit
  | [] => ([], pure ())
  | module :: rest =>
      let (settled, run) := module.settle options
      match run.result with
      | .error fault => (settled :: rest, ⟨run.trace, .error fault⟩)
      | .ok _ =>
          let (others, next) := settleAll options rest
          (settled :: others, ⟨run.trace ++ next.trace, next.result⟩)

/-- Settles the pending modules side by side: nothing is reported of their checks but the verdicts,
and a fault keeps no verdict at all. -/
def settleTogether (options : Validation.Options) :
    List Registered → Except Fault (List Registered × List Event)
  | [] => .ok ([], [])
  | module :: rest =>
      match module.verdict with
      | some _ => do
          let (others, events) ← settleTogether options rest
          return (module :: others, events)
      | none => do
          let verdict ← Verdict.ofResult (module.definition.validate options).result
          let (others, events) ← settleTogether options rest
          return ({ module with verdict := some verdict } :: others,
            module.verdictEvent verdict :: events)

def error? (module : Registered) : Option ValidationError :=
  match module.verdict with
  | some (.error error) => some error
  | _ => none

end Registered

/-- The modules in order of registration, the position of each name among them, the host instances,
how modules are validated, and what of the events is logged. -/
structure Registry where
  nesting : Nat := defaultNesting
  sideBySide : Bool := true
  channels : Option Channels := none
  modules : List Registered := []
  positions : List (Name × Nat) := []
  hosts : List (Name × InstanceType) := []

inductive ArgumentSource where
  | item (name : Name) (type : ItemType)
  | registeredHost (name host : Name)
  | moduleType (name module : Name)
  | host (name : Name) (items : List (Name × HostItem))

namespace Registry

variable {α β : Type}

/-- An operation returns the registry after it, also if it fails. -/
abbrev Run (α : Type) := Registry × Traced LinkFault α

def failing (registry : Registry) (fault : LinkFault) : Run α :=
  (registry, .ofExcept (.error fault))

def returning (registry : Registry) (value : α) : Run α := (registry, pure value)

def andThen (run : Run α) (next : Registry → α → Run β) : Run β :=
  match run.2.result with
  | .error fault => (run.1, ⟨run.2.trace, .error fault⟩)
  | .ok value =>
      let (registry, rest) := next run.1 value
      (registry, ⟨run.2.trace ++ rest.trace, rest.result⟩)

/-- Modules are checked with events if a log is attached. -/
def options (registry : Registry) : Validation.Options :=
  { nesting := registry.nesting, listening := registry.channels.isSome }

def log (registry : Registry) (events : List Event) : Text :=
  match registry.channels with
  | some channels => channels.log events
  | none => []

def isTaken (registry : Registry) (name : Name) : Bool :=
  Entries.has registry.positions name || Entries.has registry.hosts name

def register (registry : Registry) : Option ModuleDef → Run Unit
  | none => registry.failing .noModuleGiven
  | some module =>
      if module.name.isEmpty then registry.failing (.lookup ⟨module.name, .unnamed⟩)
      else if registry.isTaken module.name then
        registry.failing (.lookup ⟨module.name, .collision⟩)
      else
        ({ registry with
            modules := registry.modules ++ [{ definition := module }]
            positions := registry.positions ++ [(module.name, registry.modules.length)] },
          .emit (.link (.registeredModule module.name module.size)))

def registerHost (registry : Registry) (host : Host) : Run InstanceType :=
  if registry.isTaken host.name then registry.failing (.lookup ⟨host.name, .collision⟩)
  else
    ({ registry with hosts := registry.hosts ++ [(host.name, host.items)] },
      ⟨.one (.link (.registeredHost host.name host.items)), .ok host.items⟩)

def conclude (registry : Registry) (validated : Nat) : Traced LinkFault Unit :=
  let errors := registry.modules.filterMap Registered.error?
  ⟨.one (.link (.validatedAll validated errors.length)),
    if errors.isEmpty then .ok () else .error (.rejected ⟨errors⟩)⟩

/-- Settles all pending modules, side by side if there are several and the registry does so. -/
def validateAll (registry : Registry) : Run Unit :=
  let pending := registry.modules.countP Registered.isPending
  if registry.sideBySide && 1 < pending then
    match Registered.settleTogether registry.options registry.modules with
    | .error fault => registry.failing (.check fault)
    | .ok (modules, events) =>
        andThen ({ registry with modules := modules }, ⟨.ofList events, .ok ()⟩) fun settled _ =>
          (settled, settled.conclude pending)
  else
    let (modules, run) := Registered.settleAll registry.options registry.modules
    andThen ({ registry with modules := modules }, run.mapError .check) fun settled _ =>
      (settled, settled.conclude pending)

def moduleType (registry : Registry) (name : Name) : Run ModuleType :=
  match registry.positions.lookup name with
  | none => registry.failing (.lookup ⟨name, .noModule⟩)
  | some position =>
      match registry.modules[position]? with
      | none => registry.failing (.lookup ⟨name, .noModule⟩)
      | some module =>
          let (settled, run) := module.settle registry.options
          andThen ({ registry with modules := registry.modules.set position settled },
              run.mapError .check) fun next verdict =>
            (next, .ofExcept (verdict.mapError fun error => .check (.invalid error)))

def hostInstance (registry : Registry) (name : Name) : Run InstanceType :=
  match registry.hosts.lookup name with
  | none => registry.failing (.lookup ⟨name, .noHost⟩)
  | some type => registry.returning type

def buildHost (registry : Registry) (name : Name) (items : List (Name × HostItem)) : Run Host :=
  (registry, .ofExcept ((Host.defineAll { name := name } items).mapError .host))

def argument (registry : Registry) : ArgumentSource → Run (Name × ItemType)
  | .item name type => registry.returning (name, type)
  | .registeredHost name host =>
      andThen (registry.hostInstance host) fun next type => next.returning (name, .inst type)
  | .moduleType name module =>
      andThen (registry.moduleType module) fun next type => next.returning (name, .ofModule type)
  | .host name items =>
      andThen (registry.buildHost name items) fun next host =>
        next.returning (host.name, .inst host.items)

def gather (registry : Registry) : List ArgumentSource → Run Arguments
  | [] => registry.returning []
  | source :: rest =>
      andThen (registry.argument source) fun next first =>
        andThen (next.gather rest) fun last others => last.returning (first :: others)

def instantiate (registry : Registry) (name : Name) (arguments : Arguments) : Run InstanceType :=
  andThen (registry.moduleType name) fun next type =>
    (next, (type.instantiate name arguments).mapError .check)

inductive Op where
  | attach (channels : Option Channels)
  | register (module : Option ModuleDef)
  | registerHost (name : Name) (items : List (Name × HostItem))
  | validateAll
  | moduleType (name : Name)
  | hostInstance (name : Name)
  | instantiate (name : Name) (sources : List ArgumentSource)

inductive Answer where
  | done
  | instanceType (type : InstanceType)
  | moduleType (type : ModuleType)
  | instantiated (arguments : Nat) (type : InstanceType)

def step (registry : Registry) : Op → Run Answer
  | .attach channels => ({ registry with channels := channels }, pure .done)
  | .register module => andThen (registry.register module) fun next _ => next.returning .done
  | .registerHost name items =>
      andThen (registry.buildHost name items) fun next host =>
        andThen (next.registerHost host) fun last type => last.returning (.instanceType type)
  | .validateAll => andThen registry.validateAll fun next _ => next.returning .done
  | .moduleType name =>
      andThen (registry.moduleType name) fun next type => next.returning (.moduleType type)
  | .hostInstance name =>
      andThen (registry.hostInstance name) fun next type => next.returning (.instanceType type)
  | .instantiate name sources =>
      andThen (registry.gather sources) fun next arguments =>
        andThen (next.instantiate name arguments) fun last type =>
          last.returning (.instantiated arguments.length type)

def run (registry : Registry) (ops : List Op) : Registry :=
  ops.foldl (fun current op => (current.step op).1) registry

end Registry

end Linkage
