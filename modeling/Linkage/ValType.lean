import Linkage.Text

/-!
# Value types

A value type is a byte. Seven bytes are value types of the format; any other byte can be stated in a
type and is found when that type is checked.
-/

set_option autoImplicit false

namespace Linkage

/-- A value type by its byte. -/
structure ValType where
  code : UInt8
deriving DecidableEq, Repr

namespace ValType

def i32 : ValType := ⟨0x7F⟩
def i64 : ValType := ⟨0x7E⟩
def f32 : ValType := ⟨0x7D⟩
def f64 : ValType := ⟨0x7C⟩
def v128 : ValType := ⟨0x7B⟩
def funcref : ValType := ⟨0x70⟩
def externref : ValType := ⟨0x6F⟩

def named : List (ValType × Text) :=
  [(i32, "i32"), (i64, "i64"), (f32, "f32"), (f64, "f64"), (v128, "v128"),
    (funcref, "funcref"), (externref, "externref")]

def name (type : ValType) : Text := (named.lookup type).getD "<unknown val type>"

def isNumber (type : ValType) : Bool := type ∈ [i32, i64, f32, f64]

def isVector (type : ValType) : Bool := type = v128

def isReference (type : ValType) : Bool := type = funcref ∨ type = externref

def isValid (type : ValType) : Bool := type.isNumber || type.isVector || type.isReference

end ValType

end Linkage
