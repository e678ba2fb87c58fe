import Linkage.Entries
import Linkage.Kind
import Linkage.ValType

/-!
# Item types

The type of an item is a core type (function, table, memory, global), an instance type or a module
type. An instance type is its export entries, a module type its import and export entries, and all
of them are read as finite maps: see `Linkage.Entries`.

The bounds of limits and the numbers of parameters, results and entries are natural numbers. With
numbers of 32 bits the same holds for bounds in that range and for fewer than 2^32 of each.
-/

set_option autoImplicit false

namespace Linkage

/-- Bounds of a table or memory; without `max` the size is not bounded above. -/
structure Limits where
  min : Nat
  max : Option Nat
deriving DecidableEq, Repr

def Limits.fits (range : Nat) (limits : Limits) : Bool :=
  limits.min ≤ range && limits.max.all fun max => max ≤ range && limits.min ≤ max

structure FuncType where
  params : List ValType
  results : List ValType
deriving DecidableEq, Repr

structure TableType where
  elem : ValType
  limits : Limits
deriving DecidableEq, Repr

structure GlobalType where
  content : ValType
  isMutable : Bool
deriving DecidableEq, Repr

/-- Tables hold references and have at most 2^32-1 elements. -/
def TableType.isValid (type : TableType) : Bool :=
  type.elem.isReference && type.limits.fits 0xFFFFFFFF

/-- Memories have at most 65536 pages. -/
def Limits.isMemory (limits : Limits) : Bool := limits.fits 0x10000

inductive CoreType where
  | func (type : FuncType)
  | table (type : TableType)
  | memory (limits : Limits)
  | global (type : GlobalType)
deriving DecidableEq, Repr

def CoreType.kind : CoreType → ItemKind
  | .func _ => .func
  | .table _ => .table
  | .memory _ => .memory
  | .global _ => .global

inductive ItemType where
  | core (type : CoreType)
  | inst (exports : List (Name × ItemType))
  | module (imports exports : List (Name × ItemType))

mutual

/-- Decides equality. Entry lists that are one and the same object are not looked into, so types
that share their parts are compared in the time of the parts that they do not share. -/
def ItemType.decEq : ∀ type other : ItemType, Decidable (type = other)
  | .core type, .core other => decidable_of_iff (type = other) (by simp)
  | .inst exports, .inst others =>
      match ItemType.entriesDecEq exports others with
      | isTrue same => isTrue (same ▸ rfl)
      | isFalse different => isFalse fun same => different (ItemType.inst.inj same)
  | .module imports exports, .module otherImports otherExports =>
      match ItemType.entriesDecEq exports otherExports with
      | isFalse different => isFalse fun same => different (ItemType.module.inj same).2
      | isTrue sameExports =>
          match ItemType.entriesDecEq imports otherImports with
          | isFalse different => isFalse fun same => different (ItemType.module.inj same).1
          | isTrue sameImports => isTrue (sameImports ▸ sameExports ▸ rfl)
  | .core _, .inst _ => isFalse nofun
  | .core _, .module _ _ => isFalse nofun
  | .inst _, .core _ => isFalse nofun
  | .inst _, .module _ _ => isFalse nofun
  | .module _ _, .core _ => isFalse nofun
  | .module _ _, .inst _ => isFalse nofun

def ItemType.entriesDecEq (entries others : List (Name × ItemType)) :
    Decidable (entries = others) :=
  withPtrEqDecEq entries others fun _ =>
    match entries, others with
    | [], [] => isTrue rfl
    | [], _ :: _ => isFalse nofun
    | _ :: _, [] => isFalse nofun
    | (name, type) :: rest, (otherName, other) :: others =>
        if sameName : name = otherName then
          match type.decEq other with
          | isFalse different =>
              isFalse fun same => different (Prod.mk.inj (List.cons.inj same).1).2
          | isTrue sameType =>
              match ItemType.entriesDecEq rest others with
              | isFalse different => isFalse fun same => different (List.cons.inj same).2
              | isTrue sameRest => isTrue (sameName ▸ sameType ▸ sameRest ▸ rfl)
        else isFalse fun same => sameName (Prod.mk.inj (List.cons.inj same).1).1

end

instance itemTypeDecidableEq : DecidableEq ItemType := ItemType.decEq

instance entriesDecidableEq : DecidableEq (List (Name × ItemType)) := ItemType.entriesDecEq

inductive Role where
  | imports
  | exports
deriving DecidableEq, Repr

def Role.keyword : Role → Text
  | .imports => "import"
  | .exports => "export"

abbrev InstanceType := List (Name × ItemType)

structure ModuleType where
  imports : InstanceType
  exports : InstanceType
deriving DecidableEq

namespace ItemType

def func (params results : List ValType) : ItemType := .core (.func ⟨params, results⟩)

def table (elem : ValType) (limits : Limits) : ItemType := .core (.table ⟨elem, limits⟩)

def memory (limits : Limits) : ItemType := .core (.memory limits)

def global (content : ValType) (isMutable : Bool) : ItemType := .core (.global ⟨content, isMutable⟩)

def ofModule (type : ModuleType) : ItemType := .module type.imports type.exports

def instance? : ItemType → Option InstanceType
  | .inst exports => some exports
  | _ => none

def module? : ItemType → Option ModuleType
  | .module imports exports => some ⟨imports, exports⟩
  | _ => none

/-- The index space of an item; no item has kind `type`. -/
def kind : ItemType → ItemKind
  | .core type => type.kind
  | .inst _ => .inst
  | .module _ _ => .module

/-- Types are nested in their entries, so a recursion into entries ends. -/
theorem sizeOf_entry_lt {entry : Name × ItemType} {entries : InstanceType}
    (inside : entry ∈ entries) : sizeOf entry.2 < sizeOf entries := by
  have smaller := List.sizeOf_lt_of_mem inside
  obtain ⟨name, type⟩ := entry
  simp only [Prod.mk.sizeOf_spec] at smaller ⊢
  omega

end ItemType

end Linkage
