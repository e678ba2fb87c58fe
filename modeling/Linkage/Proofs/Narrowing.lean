import Linkage.Proofs.Resolution

/-!
# Rules in better views

A narrowing states better types for some imports of a module. What the definitions of the module
then see is a refinement of what they saw: the same declared types, and items with types below the
former ones. `Rule.narrowed` says that every rule still gives a type, and that it is below the
former one. Where a definition declares a type, or imports a name that is not narrowed, the type is
the former one.
-/

set_option autoImplicit false

namespace Linkage

/-- Types to be stated for the imports of a module in place of their own. -/
abbrev Narrowing := Name → Option ItemType

namespace Narrowing

def none : Narrowing := fun _ => Option.none

def entry (narrowing : Narrowing) (imported : Name × ItemType) : Name × ItemType :=
  (imported.1, (narrowing imported.1).getD imported.2)

def Fits (narrowing : Narrowing) (imports : InstanceType) : Prop :=
  ∀ imported ∈ imports, ∀ type, narrowing imported.1 = some type →
    type.Sound ∧ type.Below imported.2

theorem none_fits (imports : InstanceType) : none.Fits imports := by
  intro imported _ type stated
  exact absurd stated (by simp [none])

theorem map_entry_none (imports : InstanceType) : imports.map none.entry = imports :=
  List.map_id imports

theorem entry_names (narrowing : Narrowing) (imports : InstanceType) :
    (imports.map narrowing.entry).map Prod.fst = imports.map Prod.fst := by
  rw [List.map_map]
  rfl

end Narrowing

def Definition.narrowed (narrowing : Narrowing) : Definition → Definition
  | .importItem name type => .importItem name ((narrowing name).elim type .complete)
  | definition => definition

theorem Definition.narrowed_none (definition : Definition) :
    definition.narrowed .none = definition := by
  cases definition <;> rfl

theorem Definition.space_narrowed (narrowing : Narrowing) (definition : Definition)
    {lower upper : ItemType} (kinds : lower.kind = upper.kind) :
    (definition.narrowed narrowing).space lower = definition.space upper := by
  cases definition <;> simp [Definition.narrowed, Definition.space, kinds]

theorem Definition.exportEntry_narrowed (narrowing : Narrowing) (definition : Definition)
    {lower upper : ItemType} (below : lower.Below upper) :
    Entries.Aligned ItemType.Below ((definition.narrowed narrowing).exportEntry lower).toList
      (definition.exportEntry upper).toList := by
  cases definition with
  | exportItem name reference => exact .cons ⟨rfl, below⟩ .nil
  | _ => exact .nil

/-! ## Better views -/

/-- A view refines another one if it shows the same declared types, and items below those that the
other one shows. -/
structure View.Refines (lower upper : View) : Prop where
  types : lower .type = upper .type
  items : ∀ kind index item, upper kind index = some item →
    ∃ better, lower kind index = some better ∧ better.Below item

section

variable {lower upper : View}

mutual

/-- A stated type depends on nothing but the declared types. -/
theorem Spells.of_types (types : lower .type = upper .type) : ∀ {type : TypeExpr} {item : ItemType},
    Spells upper type item → Spells lower type item
  | _, _, .complete sound => .complete sound
  | _, _, .indexed declared kinds => .indexed (types ▸ declared) kinds
  | _, _, .inst each distinct => .inst (SpellsEach.of_types types each) distinct
  | _, _, .module eachImport distinctImports eachExport distinctExports =>
      .module (SpellsEach.of_types types eachImport) distinctImports
        (SpellsEach.of_types types eachExport) distinctExports

theorem SpellsEach.of_types (types : lower .type = upper .type) :
    ∀ {entries : List (Name × TypeExpr)} {items : InstanceType},
      SpellsEach upper entries items → SpellsEach lower entries items
  | _, _, .nil => .nil
  | _, _, .cons first later => .cons (Spells.of_types types first) (SpellsEach.of_types types later)

end

theorem Names.refined (refines : View.Refines lower upper) {reference : ItemRef} {item : ItemType}
    (named : Names upper reference item) :
    ∃ better, Names lower reference better ∧ better.Below item := by
  obtain ⟨kind, notType, code, found⟩ := named
  obtain ⟨better, shown, below⟩ := refines.items kind reference.index item found
  exact ⟨better, ⟨kind, notType, code, shown⟩, below⟩

theorem NamesEach.refined (refines : View.Refines lower upper)
    {references : List (Name × ItemRef)} {items : InstanceType}
    (named : NamesEach upper references items) :
    ∃ better, NamesEach lower references better ∧
      Entries.Aligned ItemType.Below better items := by
  unfold NamesEach Entries.Aligned at named
  induction named with
  | nil => exact ⟨[], .nil, .nil⟩
  | @cons reference item _ _ head _ ih =>
      obtain ⟨sameName, named⟩ := head
      obtain ⟨first, firstNamed, firstBelow⟩ := named.refined refines
      obtain ⟨rest, restNamed, restBelow⟩ := ih
      exact ⟨(item.1, first) :: rest, .cons ⟨sameName, firstNamed⟩ restNamed,
        .cons ⟨rfl, firstBelow⟩ restBelow⟩

end

/-! ## Better items -/

structure Definition.Improves (narrowing : Narrowing) (definition : Definition)
    (lower upper : ItemType) : Prop where
  below : lower.Below upper
  types : definition.space upper = some .type → lower = upper
  imports : (definition.narrowed narrowing).importEntry lower =
    (definition.importEntry upper).map narrowing.entry

/-- In better views, and with a better type for a nested module, the rule of a definition gives a
better item. -/
theorem Rule.narrowed {here better : View} {outer around : List View} {inner narrower : ModuleType}
    {definition : Definition} {item : ItemType} {narrowing : Narrowing}
    (rule : Rule here outer inner definition item) (refines : better.Refines here)
    (enclosing : List.Forall₂ View.Refines around outer)
    (nested : (ItemType.ofModule narrower).Below (.ofModule inner))
    (fits : narrowing.Fits (definition.importEntry item).toList) :
    ∃ lower, Rule better around narrower (definition.narrowed narrowing) lower ∧
      definition.Improves narrowing lower item := by
  cases rule with
  | @typeItem type _ spelt =>
      exact ⟨item, .typeItem (spelt.of_types refines.types), .refl item, fun _ => rfl, rfl⟩
  | @importItem name type _ spelt =>
      have notType : Definition.space (.importItem name type) item ≠ some .type := by
        simp [Definition.space, item.kind_ne_type]
      cases stated : narrowing name with
      | none =>
          refine ⟨item, ?_, .refl item, fun _ => rfl, ?_⟩
          · rw [Definition.narrowed, stated]
            exact .importItem (spelt.of_types refines.types)
          · simp [Definition.narrowed, Definition.importEntry, Narrowing.entry, stated]
      | some lower =>
          obtain ⟨sound, below⟩ := fits (name, item) List.mem_cons_self lower stated
          refine ⟨lower, ?_, below, fun isType => absurd isType notType, ?_⟩
          · rw [Definition.narrowed, stated]
            exact .importItem (.complete sound)
          · simp [Definition.narrowed, Definition.importEntry, Narrowing.entry, stated]
  | nested => exact ⟨.ofModule narrower, .nested, nested, nofun, rfl⟩
  | @instantiate moduleIndex arguments type items target distinct named supplied =>
      obtain ⟨shown, found, below⟩ := refines.items _ _ _ target
      obtain ⟨lower, same, exports, imports⟩ := ItemType.below_ofModule below
      obtain ⟨betterItems, betterNamed, aligned⟩ := named.refined refines
      -- The better items still suffice, since the better module asks for no more.
      have betterSupplied : Entries.Covers ItemType.Below betterItems lower.imports :=
        aligned.covers.below_trans (supplied.below_trans imports)
      exact ⟨.inst lower.exports, .instantiate (same ▸ found) distinct betterNamed betterSupplied,
        ItemType.below_inst_iff.mpr exports, nofun, rfl⟩
  | @tuple exports items distinct named =>
      obtain ⟨betterItems, betterNamed, aligned⟩ := named.refined refines
      exact ⟨.inst betterItems, .tuple distinct betterNamed,
        ItemType.below_inst_iff.mpr aligned.covers, nofun, rfl⟩
  | @exportAlias target exports _ source exported kinds =>
      obtain ⟨shown, found, below⟩ := refines.items _ _ _ source
      obtain ⟨betterExports, same, covers⟩ := ItemType.below_ofInst below
      obtain ⟨lower, betterExported, lowerBelow⟩ := covers _ _ exported
      have notType : Definition.space (.exportAlias target) item ≠ some .type := by
        simp [Definition.space, item.kind_ne_type]
      exact ⟨lower, .exportAlias (same ▸ found) betterExported (lowerBelow.kind_eq ▸ kinds),
        lowerBelow, fun isType => absurd isType notType, rfl⟩
  | @outerAlias target kind view _ aliased code ancestor visible =>
      obtain ⟨betterView, betterAncestor, betterRefines⟩ :=
        exists_getElem?_of_forall₂ enclosing ancestor
      have space : Definition.space (.outerAlias target) item = some kind :=
        KindCode.outerKind?_eq_some_iff.mpr ⟨aliased, code⟩
      obtain ⟨lower, shown, below⟩ := betterRefines.items _ _ _ visible
      refine ⟨lower, .outerAlias aliased code betterAncestor shown, below, ?_, rfl⟩
      intro isType
      -- A declared type of an enclosing module is the same in both views.
      have isTypeSpace := Option.some.inj (space.symm.trans isType)
      rw [isTypeSpace, betterRefines.types, ← isTypeSpace, visible] at shown
      exact (Option.some.inj shown).symm
  | @exportItem name reference _ named =>
      obtain ⟨lower, betterNamed, below⟩ := named.refined refines
      exact ⟨lower, .exportItem betterNamed, below, nofun, rfl⟩

end Linkage
