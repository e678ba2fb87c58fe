import Linkage.Search
import Linkage.Type.Printer
import Linkage.Type.Sharing

/-!
# Defects of types

A type is well formed if all its value types are value types of the format, its tables hold
references and have limits in order and range, and its memories have limits in order and range.
`ItemType.defect?` finds the first core type that breaks this: imports before exports, and the
entries of a family in byte order of their names. Entries that do not count are not looked at.
-/

set_option autoImplicit false

namespace Linkage

inductive Defect where
  | valType (type : ValType) (within : CoreType)
  | table (type : TableType)
  | memory (limits : Limits)
deriving DecidableEq, Repr

def Defect.text : Defect → Text
  | .valType type within =>
      "Invalid value type " ++ Text.ofNat type.code.toNat ++ " in " ++ within.text
  | .table type =>
      "Table type " ++ type.text ++
        " needs a reference element type and limits within 2^32-1"
  | .memory limits =>
      "Memory type " ++ (CoreType.memory limits).text ++ " has limits exceeding 65536 pages"

def CoreType.defect? : CoreType → Option Defect
  | .func type =>
      ((type.params ++ type.results).find? fun valType => !valType.isValid).map
        fun valType => .valType valType (.func type)
  | .table type => if type.isValid then none else some (.table type)
  | .memory limits => if limits.isMemory then none else some (.memory limits)
  | .global type =>
      if type.content.isValid then none else some (.valType type.content (.global type))

/-- A search for a defect; what it settles are types without defects. -/
abbrev Inspection := Search Defect ItemType

def Entries.inspect (entries : List (Name × Inspection)) : Inspection := fun settled =>
  Search.inOrder Prod.snd (Entries.sorted entries) settled

mutual

def ItemType.inspect : ItemType → Inspection
  | .core type => .ofOption type.defect?
  | .inst exports =>
      .settle (.inst exports) fun settled =>
        Entries.inspect (ItemType.inspections exports) settled
  | .module imports exports =>
      .settle (.module imports exports) fun settled =>
        Entries.inspect (ItemType.inspections imports) settled
        >>= Entries.inspect (ItemType.inspections exports)

def ItemType.inspections : List (Name × ItemType) → List (Name × Inspection)
  | [] => []
  | (name, type) :: rest => (name, type.inspect) :: ItemType.inspections rest

end

/-- The first defect of a type. Which one is first among several ill-formed entries of a family is a
choice of this library: families are maps, and byte order is one order to go through them in. That
there is a defect does not depend on it. -/
def ItemType.defect? (type : ItemType) : Option Defect := type.shared.inspect.fault?

def ItemType.isWellFormed (type : ItemType) : Bool := type.defect?.isNone

end Linkage
