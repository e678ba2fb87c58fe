import Linkage.Text

/-!
# Item kinds

There are seven index spaces and one kind for each. Definitions carry a kind as a 32-bit code, and a
code above six names no kind; `KindCode` keeps such a code so that it can be reported.
-/

set_option autoImplicit false

namespace Linkage

def signedCode (code : UInt32) : Int := code.toInt32.toInt

/-- The kind of an item, and so the index space it is declared in. -/
inductive ItemKind where
  | func
  | table
  | memory
  | global
  | inst
  | module
  | type
deriving DecidableEq, Repr

namespace ItemKind

/-- The kinds in the order of their codes. -/
def all : List ItemKind := [.func, .table, .memory, .global, .inst, .module, .type]

def code : ItemKind → UInt32
  | .func => 0
  | .table => 1
  | .memory => 2
  | .global => 3
  | .inst => 4
  | .module => 5
  | .type => 6

def ofCode? (code : UInt32) : Option ItemKind := all[code.toNat]?

def name : ItemKind → Text
  | .func => "func"
  | .table => "table"
  | .memory => "memory"
  | .global => "global"
  | .inst => "instance"
  | .module => "module"
  | .type => "type"

end ItemKind

/-- The code of a kind as a definition states it. It may name no kind. -/
structure KindCode where
  code : UInt32
deriving DecidableEq, Repr

namespace KindCode

def ofKind (kind : ItemKind) : KindCode := ⟨kind.code⟩

instance coeKind : Coe ItemKind KindCode := ⟨ofKind⟩

def kind? (code : KindCode) : Option ItemKind := ItemKind.ofCode? code.code

def name (code : KindCode) : Text :=
  match code.kind? with
  | some kind => kind.name
  | none => "<unknown item kind>"

/-- Everything but a type can be defined, exported and passed as an argument. -/
def isDefinition (code : KindCode) : Bool := code ≠ ofKind .type

/-- Only modules and types can be taken from an enclosing module. -/
def outerKind? (code : KindCode) : Option ItemKind :=
  [ItemKind.module, ItemKind.type].find? fun kind => code = ofKind kind

end KindCode

end Linkage
