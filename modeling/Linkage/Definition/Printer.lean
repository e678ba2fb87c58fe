import Linkage.Definition.Basic
import Linkage.Type.Printer

/-!
# Text of definitions

A definition has a one-line text, in which a nested module is only named and counted, and a layout
over several lines, in which nested modules are written whole, each level two blanks further in.
-/

set_option autoImplicit false

namespace Linkage

mutual

def TypeExpr.text : TypeExpr → Text
  | .complete type => type.text
  | .indexed kind index => "(" ++ kind.name ++ " (type " ++ Text.ofNat index ++ "))"
  | .inst exports => "(instance" ++ Entries.text .exports (TypeExpr.texts exports) ++ ")"
  | .module imports exports =>
      "(module" ++ Entries.text .imports (TypeExpr.texts imports) ++
        Entries.text .exports (TypeExpr.texts exports) ++ ")"

def TypeExpr.texts : List (Name × TypeExpr) → List (Name × Text)
  | [] => []
  | (name, type) :: rest => (name, type.text) :: TypeExpr.texts rest

end

def ItemRef.text (item : ItemRef) : Text :=
  "(" ++ item.kind.name ++ " " ++ Text.ofNat item.index ++ ")"

def ItemRef.texts (items : List (Name × ItemRef)) : List (Name × Text) :=
  items.map fun item => (item.1, item.2.text)

namespace Definition

def keyword : Definition → Text
  | .typeItem _ => "type"
  | .importItem _ _ => "import"
  | .nested _ _ => "module"
  | .absent => "module"
  | .instantiate _ _ => "instance"
  | .tuple _ => "instance"
  | .exportAlias _ => "alias"
  | .outerAlias _ => "alias"
  | .exportItem _ _ => "export"

/-- The definition on one line. The text of a module that was never given is a choice of this
library: there is nothing that such a definition could be printed from. -/
def text : Definition → Text
  | .typeItem type => "(type " ++ type.text ++ ")"
  | .importItem name type => "(import " ++ Text.doubleQuoted name ++ " " ++ type.text ++ ")"
  | .nested name definitions =>
      "(module " ++ Text.doubleQuoted name ++ " with " ++ Text.ofNat definitions.length ++
        " definitions)"
  | .absent => "(module)"
  | .instantiate moduleIndex arguments =>
      "(instance (instantiate " ++ Text.ofNat moduleIndex ++
        Entries.text .imports (ItemRef.texts arguments) ++ "))"
  | .tuple exports => "(instance" ++ Entries.text .exports (ItemRef.texts exports) ++ ")"
  | .exportAlias target =>
      "(alias " ++ Text.ofNat target.instanceIndex ++ " " ++ Text.doubleQuoted target.name ++
        " (" ++ target.kind.name ++ "))"
  | .outerAlias target =>
      "(alias outer " ++ Text.ofNat target.depth ++ " " ++ Text.ofNat target.index ++
        " (" ++ target.kind.name ++ "))"
  | .exportItem name item => "(export " ++ Text.doubleQuoted name ++ " " ++ item.text ++ ")"

mutual

/-- The definition over several lines, the first of them after the given number of blanks. -/
def layout (indent : Nat) : Definition → Text
  | .nested name definitions =>
      Text.blanks indent ++ "(module" ++
        (if name.isEmpty then [] else " " ++ Text.doubleQuoted name : Text) ++
        layouts (indent + 2) definitions ++ ")"
  | definition => Text.blanks indent ++ definition.text

def layouts (indent : Nat) : List Definition → Text
  | [] => []
  | definition :: rest => "\n" ++ definition.layout indent ++ layouts indent rest

end

end Definition

def ModuleDef.layout (indent : Nat) (module : ModuleDef) : Text := module.asNested.layout indent

end Linkage
