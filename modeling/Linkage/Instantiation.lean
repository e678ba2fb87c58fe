import Linkage.Traced

/-!
# Instantiation

A module type is instantiated with named arguments. Every import needs an argument of its name whose
type is below the type of the import; the result is the instance type of the exports. Arguments that
are not imported do no harm, but no name may be used twice.
-/

set_option autoImplicit false

namespace Linkage

abbrev Arguments := List (Name × ItemType)

namespace Instantiation

/-- Refuses a list in which a name occurs twice, for the first name that occurred earlier. -/
def checkNames {α : Type} (context : Name) (arguments : List (Name × α)) : Except Fault Unit :=
  match Entries.repeated? arguments with
  | none => .ok ()
  | some name => .error (.invalid ⟨context, .duplicateArgument name⟩)

def checkImport (context : Name) (arguments : Arguments) (name : Name) (wanted : ItemType) :
    Except Fault ItemType :=
  match arguments.lookup name with
  | none => .error (.invalid ⟨context, .missingArgument name wanted⟩)
  | some argument =>
      match argument.mismatch? wanted with
      | none => .ok argument
      | some mismatch => .error (.invalid ⟨context, .argumentMismatch name mismatch⟩)

def checkImports (context : Name) (arguments : Arguments) :
    List (Name × ItemType) → Traced Fault Unit
  | [] => pure ()
  | (name, wanted) :: rest => do
      let argument ← .ofExcept (checkImport context arguments name wanted)
      .emit (.link (.matched name argument wanted))
      checkImports context arguments rest

def ignored (imports : InstanceType) (arguments : Arguments) : List Event :=
  (arguments.filter fun argument => !Entries.has imports argument.1).map
    fun argument => .link (.ignored argument.1)

end Instantiation

open Instantiation in
/-- Checks the arguments against the imports, in byte order of the import names. -/
def ModuleType.instantiate (context : Name) (type : ModuleType) (arguments : Arguments) :
    Traced Fault InstanceType := do
  .emit (.link (.instantiating context type))
  .ofExcept (checkNames context arguments)
  checkImports context arguments (Entries.sorted type.imports)
  ⟨.ofList (ignored type.imports arguments), .ok ()⟩
  .emit (.link (.instantiated context type.exports))
  return type.exports

def InstanceType.ofItems (context : Name) (items : Arguments) : Except Fault InstanceType := do
  Instantiation.checkNames context items
  return items

def hostContext : Name := "<host>"

end Linkage
