import Linkage.Definition.Basic
import Linkage.Type.Defect
import Linkage.Type.Mismatch

/-!
# Faults

Every way in which a check can end early is a constructor that holds what was found; the wording is
in one function for each type. A validation error says that a module is invalid and where. A missing
module and a misuse are faults of the caller, not of a module.
-/

set_option autoImplicit false

namespace Linkage

inductive ErrorKind where
  | duplicateName
  | unboundIndex
  | unboundExport
  | kindMismatch
  | subtypeError
  | missingImport
  | duplicateArgName
  | aliasDepthError
  | invalidType
  | nestingTooDeep
deriving DecidableEq, Repr

namespace ErrorKind

def all : List ErrorKind :=
  [.duplicateName, .unboundIndex, .unboundExport, .kindMismatch, .subtypeError, .missingImport,
    .duplicateArgName, .aliasDepthError, .invalidType, .nestingTooDeep]

def ofCode? (code : UInt32) : Option ErrorKind := all[code.toNat]?

def name : ErrorKind → Text
  | .duplicateName => "DuplicateName"
  | .unboundIndex => "UnboundIndex"
  | .unboundExport => "UnboundExport"
  | .kindMismatch => "KindMismatch"
  | .subtypeError => "SubtypeError"
  | .missingImport => "MissingImport"
  | .duplicateArgName => "DuplicateArgName"
  | .aliasDepthError => "AliasDepthError"
  | .invalidType => "InvalidType"
  | .nestingTooDeep => "NestingTooDeep"

def nameOf : Option ErrorKind → Text
  | some kind => kind.name
  | none => "<unknown validation error>"

end ErrorKind

inductive Use where
  | argument
  | tupleExport
  | moduleExport
deriving DecidableEq, Repr

def Use.text : Use → Text
  | .argument => "instantiation argument"
  | .tupleExport => "instance export"
  | .moduleExport => "export"

inductive Cause where
  /-- Two imports or two exports of a module have one name. -/
  | duplicateItem (role : Role) (name : Name)
  /-- Two entries of a stated type have one name. -/
  | duplicateEntry (role : Role) (name : Name)
  | unboundIndex (kind : ItemKind) (index visible : Nat)
  | unboundOuter (kind : ItemKind) (index : Nat) (ancestor : Name) (visible : Nat)
  | unboundExport (instanceIndex : Nat) (name : Name)
  /-- An alias asks an instance for a type. -/
  | exportedType (name : Name)
  | exportKind (name : Name) (instanceIndex : Nat) (found : ItemKind) (expected : KindCode)
  /-- An outer alias asks for something other than a module or a type. -/
  | outerKind (found : KindCode)
  | typeReference (index : Nat) (use : Use)
  | typeKind (index : Nat) (found : ItemKind) (expected : KindCode)
  | argumentMismatch (name : Name) (mismatch : Mismatch)
  | missingArgument (name : Name) (type : ItemType)
  | duplicateArgument (name : Name)
  | outerDepth (depth enclosing : Nat)
  | defect (found : Defect)
  | nesting (depth limit : Nat)
  /-- An error that the caller words, with the code of its class. -/
  | reported (code : UInt32) (message : Text)
deriving DecidableEq

namespace Cause

/-- The class of an error; only a reported one can have none. -/
def kind? : Cause → Option ErrorKind
  | .duplicateItem _ _ => some .duplicateName
  | .duplicateEntry _ _ => some .duplicateName
  | .unboundIndex _ _ _ => some .unboundIndex
  | .unboundOuter _ _ _ _ => some .unboundIndex
  | .unboundExport _ _ => some .unboundExport
  | .exportedType _ => some .kindMismatch
  | .exportKind _ _ _ _ => some .kindMismatch
  | .outerKind _ => some .kindMismatch
  | .typeReference _ _ => some .kindMismatch
  | .typeKind _ _ _ => some .kindMismatch
  | .argumentMismatch _ _ => some .subtypeError
  | .missingArgument _ _ => some .missingImport
  | .duplicateArgument _ => some .duplicateArgName
  | .outerDepth _ _ => some .aliasDepthError
  | .defect _ => some .invalidType
  | .nesting _ _ => some .nestingTooDeep
  | .reported code _ => ErrorKind.ofCode? code

def message : Cause → Text
  | .duplicateItem role name => "Duplicate " ++ role.keyword ++ " name " ++ Text.quoted name
  | .duplicateEntry role name =>
      "Duplicate " ++ role.keyword ++ " name " ++ Text.quoted name ++ " in type"
  | .unboundIndex kind index visible =>
      kind.name ++ " index " ++ Text.ofNat index ++ " is out of bounds, only " ++
        Text.ofNat visible ++ " defined"
  | .unboundOuter kind index ancestor visible =>
      "Outer " ++ kind.name ++ " index " ++ Text.ofNat index ++ " of " ++ Text.quoted ancestor ++
        " is out of bounds, only " ++ Text.ofNat visible ++ " visible"
  | .unboundExport instanceIndex name =>
      "Instance " ++ Text.ofNat instanceIndex ++ " has no export named " ++ Text.quoted name
  | .exportedType name =>
      "Instances do not export types, cannot alias type " ++ Text.quoted name
  | .exportKind name instanceIndex found expected =>
      "Export " ++ Text.quoted name ++ " of instance " ++ Text.ofNat instanceIndex ++
        " is a " ++ found.name ++ ", expected a " ++ expected.name
  | .outerKind found =>
      "Outer aliases may only refer to modules and types, found " ++ found.name
  | .typeReference index use =>
      "Type " ++ Text.ofNat index ++ " cannot be used as " ++ use.text
  | .typeKind index found expected =>
      "Type " ++ Text.ofNat index ++ " is a " ++ found.name ++ " type, expected a " ++
        expected.name ++ " type"
  | .argumentMismatch name mismatch =>
      "Argument " ++ Text.quoted name ++ " does not match its import: " ++ mismatch.text
  | .missingArgument name type =>
      "Missing argument for import " ++ Text.quoted name ++ " of type " ++ type.text
  | .duplicateArgument name =>
      "Argument name " ++ Text.quoted name ++ " is used more than once"
  | .outerDepth depth enclosing =>
      "Outer alias depth " ++ Text.ofNat depth ++ " exceeds the " ++ Text.ofNat enclosing ++
        " enclosing module(s)"
  | .defect found => found.text
  | .nesting depth limit =>
      "Module is nested " ++ Text.ofNat depth ++ " levels deep, at most " ++ Text.ofNat limit ++
        " are allowed"
  | .reported _ message => message

end Cause

structure ValidationError where
  path : Name
  cause : Cause
deriving DecidableEq

namespace ValidationError

def kindName (error : ValidationError) : Text := ErrorKind.nameOf error.cause.kind?

def message (error : ValidationError) : Text := error.cause.message

/-- The error on one line; a long path keeps only its end. -/
def text (error : ValidationError) : Text :=
  "Validation error (" ++ error.kindName ++ ") in " ++ Text.quoted error.path.shortened ++ ": " ++
    error.message

end ValidationError

/-- The life of a scope: definitions are accepted only while accumulating. -/
inductive ScopeState where
  | empty
  | accumulating
  | frozen
  | failed
deriving DecidableEq, Repr

namespace ScopeState

def all : List ScopeState := [.empty, .accumulating, .frozen, .failed]

def ofCode? (code : UInt32) : Option ScopeState := all[code.toNat]?

def name : ScopeState → Text
  | .empty => "Empty"
  | .accumulating => "Accumulating"
  | .frozen => "Frozen"
  | .failed => "Failed"

def nameOf : Option ScopeState → Text
  | some state => state.name
  | none => "<unknown scope state>"

def isTerminal : ScopeState → Bool
  | .frozen => true
  | .failed => true
  | _ => false

end ScopeState

inductive Misuse where
  | alreadyValidated (scope : Name)
  | notAccepting (scope : Name) (state : ScopeState)
  /-- An item was declared in the space of another kind. -/
  | wrongSpace (space item : ItemKind)
  /-- An entry of a space is not of the space's kind. -/
  | wrongEntry (space item : ItemKind)
  /-- A reference has a code that names no kind. -/
  | unknownKind (code : KindCode)
  | unknownScope (number : Nat)
deriving DecidableEq, Repr

def Misuse.message : Misuse → Text
  | .alreadyValidated scope => "Scope " ++ Text.quoted scope ++ " was already validated"
  | .notAccepting scope state =>
      "Scope " ++ Text.quoted scope ++ " does not accept definitions in state " ++ state.name
  | .wrongSpace space item => "Space " ++ space.name ++ " does not take a " ++ item.name
  | .wrongEntry space item => "Space " ++ space.name ++ " holds a " ++ item.name
  | .unknownKind code => "No space has kind " ++ Text.ofNat code.code.toNat
  | .unknownScope number => "No scope has number " ++ Text.ofNat number

inductive Fault where
  | invalid (error : ValidationError)
  /-- A definition in the scope promises a nested module and has none. -/
  | missingModule (scope : Name)
  | misuse (found : Misuse)
deriving DecidableEq

def Fault.message : Fault → Text
  | .invalid error => error.message
  | .missingModule scope => "Nested module definition in " ++ Text.quoted scope ++ " has no module"
  | .misuse found => found.message

end Linkage
