import Linkage.Definition.Printer
import Linkage.Fault
import Linkage.Path

/-!
# Events

A check reports what it does as a list of events. An event is data: whether and how it is written is
decided afterwards. Events of a scope and events of linking are two channels that a log can show
separately, and each event is one line of the log.
-/

set_option autoImplicit false

namespace Linkage

inductive ScopeEvent where
  | started
  | finished (type : ModuleType)
  | failed (error : ValidationError)
  | visiting (definition : Definition)
  | declaredType (index : Nat) (type : ItemType)
  | declaredImport (name : Name) (kind : ItemKind) (index : Nat)
  | declaredModule (index : Nat) (type : ModuleType)
  | declaredInstance (index : Nat) (type : InstanceType)
  | declaredExport (name : Name) (type : ItemType)
  | aliasedExport (target : ExportAlias) (index : Nat) (type : ItemType)
  | aliasedOuter (target : OuterAlias) (ancestor : Name) (index : Nat) (type : ItemType)

inductive LinkEvent where
  | instantiating (context : Name) (type : ModuleType)
  | matched (name : Name) (argument wanted : ItemType)
  | ignored (name : Name)
  | instantiated (context : Name) (type : InstanceType)
  | registeredModule (name : Name) (size : Nat)
  | registeredHost (name : Name) (type : InstanceType)
  | validatedModule (name : Name) (type : ModuleType)
  | failedModule (name : Name) (error : ValidationError)
  | validatedAll (validated failed : Nat)

inductive Event where
  | scope (depth : Nat) (path : Path) (event : ScopeEvent)
  | link (event : LinkEvent)

def ScopeEvent.line (scope : Name) : ScopeEvent → Text
  | .started => "-> Validating module " ++ Text.quoted scope
  | .finished type => "<- Validated module " ++ Text.quoted scope ++ ": " ++ type.text
  | .failed error => "<- Failed module " ++ Text.quoted scope ++ ": " ++ error.text
  | .visiting definition => "  - " ++ definition.text
  | .declaredType index type => "    type " ++ Text.ofNat index ++ " = " ++ type.text
  | .declaredImport name kind index =>
      "    import " ++ Text.quoted name ++ " -> " ++ kind.name ++ " " ++ Text.ofNat index
  | .declaredModule index type => "    module " ++ Text.ofNat index ++ " = " ++ type.text
  | .declaredInstance index type =>
      "    instance " ++ Text.ofNat index ++ " = " ++ InstanceType.text type
  | .declaredExport name type => "    export " ++ Text.quoted name ++ " = " ++ type.text
  | .aliasedExport target index type =>
      "    " ++ target.kind.name ++ " " ++ Text.ofNat index ++ " aliases export " ++
        Text.quoted target.name ++ " of instance " ++ Text.ofNat target.instanceIndex ++ ": " ++
        type.text
  | .aliasedOuter target ancestor index type =>
      "    " ++ target.kind.name ++ " " ++ Text.ofNat index ++ " aliases " ++ target.kind.name ++
        " " ++ Text.ofNat target.index ++ " of " ++ Text.quoted ancestor ++ ": " ++ type.text

def LinkEvent.line : LinkEvent → Text
  | .instantiating context type =>
      "-> Instantiating in " ++ Text.quoted context ++ ": " ++ type.text
  | .matched name argument wanted =>
      "  - " ++ Text.quoted name ++ ": " ++ argument.text ++ " matches " ++ wanted.text
  | .ignored name => "  - " ++ Text.quoted name ++ ": not imported, ignoring"
  | .instantiated context type =>
      "<- Instantiated in " ++ Text.quoted context ++ ": " ++ InstanceType.text type
  | .registeredModule name size =>
      "-> Registered module " ++ Text.quoted name ++ " with " ++ Text.ofNat size ++ " definitions"
  | .registeredHost name type =>
      "-> Registered host instance " ++ Text.quoted name ++ ": " ++ InstanceType.text type
  | .validatedModule name type => "-> Module " ++ Text.quoted name ++ " has type " ++ type.text
  | .failedModule name error => "-> Module " ++ Text.quoted name ++ " failed: " ++ error.text
  | .validatedAll validated failed =>
      "-> Validated " ++ Text.ofNat validated ++ " modules, " ++ Text.ofNat failed ++ " failed"

def Event.line : Event → Text
  | .scope depth path event => Text.blanks (2 * depth) ++ event.line path.text ++ "\n"
  | .link event => event.line ++ "\n"

structure Channels where
  validating : Bool
  linking : Bool
deriving DecidableEq, Repr

namespace Channels

def shows (channels : Channels) : Event → Bool
  | .scope _ _ _ => channels.validating
  | .link _ => channels.linking

def log (channels : Channels) (events : List Event) : Text :=
  (events.filter channels.shows).flatMap Event.line

end Channels

end Linkage
