import Linkage.Type.Printer

/-!
# Host instances

A host instance is made by the embedding program, item by item. Tables and memories are checked when
they are defined; functions and globals are taken as they are. A definition that fails changes
nothing.
-/

set_option autoImplicit false

namespace Linkage

structure Host where
  name : Name
  items : InstanceType := []

/-- An item to define; instances and modules may come without a type. -/
inductive HostItem where
  | func (type : FuncType)
  | table (type : TableType)
  | memory (limits : Limits)
  | global (type : GlobalType)
  | inst (type : Option InstanceType)
  | module (type : Option ModuleType)

inductive HostFault where
  | invalidTable (name : Name)
  | invalidMemory (name : Name)
  | untypedInstance (name : Name)
  | untypedModule (name : Name)
  | duplicate (name host : Name)
deriving DecidableEq, Repr

def HostFault.message : HostFault → Text
  | .invalidTable name => "Host table " ++ Text.quoted name ++ " has an invalid type"
  | .invalidMemory name => "Host memory " ++ Text.quoted name ++ " has invalid limits"
  | .untypedInstance name => "Host instance " ++ Text.quoted name ++ " has no type"
  | .untypedModule name => "Host module " ++ Text.quoted name ++ " has no type"
  | .duplicate name host =>
      "A host item named " ++ Text.quoted name ++ " already exists in " ++ Text.quoted host

def HostItem.type (name : Name) : HostItem → Except HostFault ItemType
  | .func type => .ok (.core (.func type))
  | .table type => if type.isValid then .ok (.core (.table type)) else .error (.invalidTable name)
  | .memory limits =>
      if limits.isMemory then .ok (.core (.memory limits)) else .error (.invalidMemory name)
  | .global type => .ok (.core (.global type))
  | .inst (some type) => .ok (.inst type)
  | .inst none => .error (.untypedInstance name)
  | .module (some type) => .ok (.ofModule type)
  | .module none => .error (.untypedModule name)

namespace Host

def define (host : Host) (name : Name) (item : HostItem) : Except HostFault Host := do
  let type ← item.type name
  if Entries.has host.items name then
    .error (.duplicate name host.name)
  else
    return { host with items := host.items ++ [(name, type)] }

def defineAll (host : Host) : List (Name × HostItem) → Except HostFault Host
  | [] => .ok host
  | (name, item) :: rest => do (← host.define name item).defineAll rest

end Host

end Linkage
