import Linkage.Definition.Basic
import Linkage.Proofs.WellFormed

/-!
# The rules of definitions

A definition means something relative to what is visible at its place. A view says which entry
stands at which index of which space, `Spells` which type a stated type stands for, `Names` which
item a reference refers to, and `Rule` which type the item has that a definition declares or
exports. None of them says how any of this is found or what is reported if it is not.
-/

set_option autoImplicit false

namespace Linkage

/-- What is visible of a module: the entry at an index of the space of a kind. -/
abbrev View := ItemKind → Nat → Option ItemType

mutual

/-- A stated type spells an item type if the complete types in it are sound, the indices in it name
declared types of the stated kinds, and no name is repeated within a family of entries. -/
inductive Spells (view : View) : TypeExpr → ItemType → Prop where
  | complete {type : ItemType} (sound : type.Sound) : Spells view (.complete type) type
  | indexed {kind : KindCode} {index : Nat} {type : ItemType}
      (declared : view .type index = some type) (kinds : kind = .ofKind type.kind) :
      Spells view (.indexed kind index) type
  | inst {exports : List (Name × TypeExpr)} {entries : InstanceType}
      (each : SpellsEach view exports entries) (distinct : (exports.map Prod.fst).Nodup) :
      Spells view (.inst exports) (.inst entries)
  | module {imports exports : List (Name × TypeExpr)} {importTypes exportTypes : InstanceType}
      (eachImport : SpellsEach view imports importTypes)
      (distinctImports : (imports.map Prod.fst).Nodup)
      (eachExport : SpellsEach view exports exportTypes)
      (distinctExports : (exports.map Prod.fst).Nodup) :
      Spells view (.module imports exports) (.module importTypes exportTypes)

inductive SpellsEach (view : View) : List (Name × TypeExpr) → InstanceType → Prop where
  | nil : SpellsEach view [] []
  | cons {name : Name} {type : TypeExpr} {item : ItemType} {rest : List (Name × TypeExpr)}
      {others : InstanceType} (first : Spells view type item)
      (later : SpellsEach view rest others) :
      SpellsEach view ((name, type) :: rest) ((name, item) :: others)

end

/-- A reference names an item: its kind is that of an item, not of a type, and the item stands at
its index. -/
def Names (view : View) (reference : ItemRef) (item : ItemType) : Prop :=
  ∃ kind, kind ≠ .type ∧ reference.kind = .ofKind kind ∧ view kind reference.index = some item

def NamesEach (view : View) : List (Name × ItemRef) → InstanceType → Prop :=
  Entries.Aligned (Names view)

def Definition.space : Definition → ItemType → Option ItemKind
  | .typeItem _, _ => some .type
  | .outerAlias target, _ => target.kind.outerKind?
  | .absent, _ => none
  | .exportItem _ _, _ => none
  | _, item => some item.kind

def Definition.importEntry : Definition → ItemType → Option (Name × ItemType)
  | .importItem name _, item => some (name, item)
  | _, _ => none

def Definition.exportEntry : Definition → ItemType → Option (Name × ItemType)
  | .exportItem name _, item => some (name, item)
  | _, _ => none

/-- The type of the item that a definition declares or exports, if `here` is visible of its own
module and `outer` of the modules around it, from the inside out. The type of a nested module is
`inner`. -/
inductive Rule (here : View) (outer : List View) (inner : ModuleType) :
    Definition → ItemType → Prop where
  | typeItem {type : TypeExpr} {item : ItemType} (spelt : Spells here type item) :
      Rule here outer inner (.typeItem type) item
  | importItem {name : Name} {type : TypeExpr} {item : ItemType} (spelt : Spells here type item) :
      Rule here outer inner (.importItem name type) item
  | nested {name : Name} {definitions : List Definition} :
      Rule here outer inner (.nested name definitions) (.ofModule inner)
  | instantiate {moduleIndex : Nat} {arguments : List (Name × ItemRef)} {type : ModuleType}
      {items : InstanceType} (target : here .module moduleIndex = some (.ofModule type))
      (distinct : (arguments.map Prod.fst).Nodup) (named : NamesEach here arguments items)
      (supplied : Entries.Covers ItemType.Below items type.imports) :
      Rule here outer inner (.instantiate moduleIndex arguments) (.inst type.exports)
  | tuple {exports : List (Name × ItemRef)} {items : InstanceType}
      (distinct : (exports.map Prod.fst).Nodup) (named : NamesEach here exports items) :
      Rule here outer inner (.tuple exports) (.inst items)
  | exportAlias {target : ExportAlias} {exports : InstanceType} {item : ItemType}
      (source : here .inst target.instanceIndex = some (.inst exports))
      (exported : exports.lookup target.name = some item)
      (kinds : target.kind = .ofKind item.kind) : Rule here outer inner (.exportAlias target) item
  | outerAlias {target : OuterAlias} {kind : ItemKind} {view : View} {item : ItemType}
      (aliased : kind = .module ∨ kind = .type) (code : target.kind = .ofKind kind)
      (ancestor : outer[target.depth]? = some view)
      (visible : view kind target.index = some item) :
      Rule here outer inner (.outerAlias target) item
  | exportItem {name : Name} {reference : ItemRef} {item : ItemType}
      (named : Names here reference item) : Rule here outer inner (.exportItem name reference) item

/-- Induction on definitions, with a hypothesis for each definition of a nested module. -/
@[elab_as_elim]
theorem Definition.nestedInduction {motive : Definition → Prop} (definition : Definition)
    (nested : ∀ name definitions, (∀ inner ∈ definitions, motive inner) →
      motive (.nested name definitions))
    (plain : ∀ definition, (∀ name definitions, definition ≠ .nested name definitions) →
      motive definition) : motive definition := by
  refine @Definition.rec motive (fun definitions => ∀ inner ∈ definitions, motive inner)
    (fun _ => plain _ nofun) (fun _ _ => plain _ nofun) nested (plain _ nofun)
    (fun _ _ => plain _ nofun) (fun _ => plain _ nofun) (fun _ => plain _ nofun)
    (fun _ => plain _ nofun) (fun _ _ => plain _ nofun) ?_ ?_ definition
  · intro inner inside
    exact absurd inside List.not_mem_nil
  · intro head rest first others inner inside
    rcases List.mem_cons.mp inside with same | later
    · exact same ▸ first
    · exact others inner later

end Linkage
