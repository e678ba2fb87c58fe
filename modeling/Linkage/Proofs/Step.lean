import Linkage.Proofs.Resolution
import Linkage.Validation.Listening

/-!
# What one definition does

The check of a definition finds the type of an item and records it: `result_define_eq` splits it
into these two halves. The first succeeds if and only if the rule of the definition holds in view of
the scope, the second if and only if the scope takes the item; then the scope is `extended` by it.
-/

set_option autoImplicit false

namespace Linkage

namespace Scope

def opened (path : Path) : Scope := { path := path, state := .accumulating }

def extended (scope : Scope) (definition : Definition) (item : ItemType) : Scope :=
  { scope with
    spaces := (definition.space item).elim scope.spaces (scope.spaces.push item)
    imports := scope.imports ++ (definition.importEntry item).toList
    exports := scope.exports ++ (definition.exportEntry item).toList }

def recordIn (scope : Scope) (item : ItemType) : Option ItemKind → Except Fault Scope
  | some kind => do return (← scope.declare kind item).2
  | none => do
      scope.requireAccumulating
      return scope

def record (scope : Scope) (definition : Definition) (item : ItemType) : Except Fault Scope :=
  match definition with
  | .importItem name _ => do return (← scope.declareImport name item).2
  | .exportItem name _ => scope.declareExport name item
  | definition => scope.recordIn item (definition.space item)

/-- The scope accepts the item of a definition: it is open, the item belongs into its space, and its
name is new. -/
structure Takes (scope : Scope) (definition : Definition) (item : ItemType) : Prop where
  accumulating : scope.state = .accumulating
  fits : ∀ kind, definition.space item = some kind → kind = .type ∨ item.kind = kind
  newImport : ∀ entry, definition.importEntry item = some entry →
    entry.1 ∉ scope.imports.map Prod.fst
  newExport : ∀ entry, definition.exportEntry item = some entry →
    entry.1 ∉ scope.exports.map Prod.fst

end Scope

namespace Validation

def itemOf (options : Options) (outer : List Enclosing) (scope : Scope) :
    Definition → Except Fault ItemType
  | .typeItem type => scope.resolveType type
  | .importItem _ type => scope.resolveType type
  | .nested name definitions => do
      let around := scope.seen :: outer
      return .ofModule (← (inScope options around (scope.nestedPath name) fun child =>
        defineAll options around child definitions).result)
  | .absent => .error (.missingModule scope.name)
  | .instantiate moduleIndex arguments => do
      Instantiation.checkNames scope.name arguments
      let type ← scope.moduleAt moduleIndex
      let items ← scope.resolveItems .argument arguments
      return .inst (← (type.instantiate scope.name items).result)
  | .tuple exports => do
      Instantiation.checkNames scope.name exports
      let items ← scope.resolveItems .tupleExport exports
      return .inst (← InstanceType.ofItems scope.name items)
  | .exportAlias target => scope.findExport target
  | .outerAlias target => do return (← scope.findOuter outer target).2.2
  | .exportItem _ item => scope.resolveItem .moduleExport item

end Validation

/-! ## Recording -/

namespace Scope

variable {scope next : Scope} {definition : Definition} {item : ItemType}

theorem requireAccumulating_eq_ok_iff {done : Unit} :
    scope.requireAccumulating = .ok done ↔ scope.state = .accumulating := by
  unfold requireAccumulating
  cases scope.state <;> simp

theorem declare_eq_ok_iff {kind : ItemKind} {index : Nat} :
    scope.declare kind item = .ok (index, next) ↔
      scope.state = .accumulating ∧ (kind = .type ∨ item.kind = kind) ∧
        index = scope.length kind ∧
          next = { scope with spaces := scope.spaces.push item kind } := by
  simp only [declare, bind_eq_ok_iff, requireAccumulating_eq_ok_iff]
  by_cases fits : kind = .type ∨ item.kind = kind
  · rw [if_pos fits]
    constructor
    · intro success
      obtain ⟨_, accumulating, same⟩ := success
      cases same
      exact ⟨accumulating, fits, rfl, rfl⟩
    · intro success
      obtain ⟨accumulating, _, sameIndex, sameScope⟩ := success
      exact ⟨(), accumulating, by rw [sameIndex, sameScope]; rfl⟩
  · simp [fits]

theorem recordIn_eq_ok_iff {space : Option ItemKind} :
    scope.recordIn item space = .ok next ↔
      scope.state = .accumulating ∧ (∀ kind, space = some kind → kind = .type ∨ item.kind = kind) ∧
        next = { scope with spaces := space.elim scope.spaces (scope.spaces.push item) } := by
  cases space with
  | none =>
      simp only [recordIn, bind_eq_ok_iff, requireAccumulating_eq_ok_iff]
      constructor
      · intro success
        obtain ⟨_, accumulating, same⟩ := success
        cases same
        exact ⟨accumulating, by simp, rfl⟩
      · intro success
        obtain ⟨accumulating, _, same⟩ := success
        exact ⟨(), accumulating, by rw [same]; rfl⟩
  | some kind =>
      simp only [recordIn, bind_eq_ok_iff, Option.some.injEq, forall_eq']
      constructor
      · intro success
        obtain ⟨⟨index, declared⟩, success, same⟩ := success
        obtain ⟨accumulating, fits, _, extended⟩ := declare_eq_ok_iff.mp success
        cases same
        exact ⟨accumulating, fits, extended⟩
      · intro success
        obtain ⟨accumulating, fits, same⟩ := success
        exact ⟨_, declare_eq_ok_iff.mpr ⟨accumulating, fits, rfl, same⟩, rfl⟩

/-- The space of its own kind takes every item. -/
theorem recordIn_own (accumulating : scope.state = .accumulating) (item : ItemType) :
    scope.recordIn item (some item.kind) =
      .ok { scope with spaces := scope.spaces.push item item.kind } :=
  recordIn_eq_ok_iff.mpr ⟨accumulating, fun _ space => .inr (Option.some.inj space), rfl⟩

theorem has_eq_false_iff {entries : InstanceType} {name : Name} :
    Entries.has entries name = false ↔ name ∉ entries.map Prod.fst := by
  rw [← Entries.has_iff_mem, Bool.not_eq_true]

theorem declareImport_eq_ok_iff {name : Name} {index : Nat} :
    scope.declareImport name item = .ok (index, next) ↔
      scope.state = .accumulating ∧ name ∉ scope.imports.map Prod.fst ∧
        index = scope.length item.kind ∧
        next = { scope with
          spaces := scope.spaces.push item item.kind
          imports := scope.imports ++ [(name, item)] } := by
  simp only [declareImport, bind_eq_ok_iff, requireAccumulating_eq_ok_iff, ← has_eq_false_iff]
  cases Entries.has scope.imports name with
  | true => simp [reject]
  | false =>
      simp only [Bool.false_eq_true, if_false, declare_eq_ok_iff, or_true, true_and]
      constructor
      · intro success
        obtain ⟨_, _, declared⟩ := success
        exact declared
      · intro declared
        exact ⟨(), declared.1, declared⟩

theorem declareExport_eq_ok_iff {name : Name} :
    scope.declareExport name item = .ok next ↔
      scope.state = .accumulating ∧ name ∉ scope.exports.map Prod.fst ∧
        next = { scope with exports := scope.exports ++ [(name, item)] } := by
  simp only [declareExport, bind_eq_ok_iff, requireAccumulating_eq_ok_iff, ← has_eq_false_iff]
  cases Entries.has scope.exports name with
  | true => simp [reject]
  | false =>
      simp only [Bool.false_eq_true, if_false, true_and]
      constructor
      · intro success
        obtain ⟨_, accumulating, same⟩ := success
        cases same
        exact ⟨accumulating, rfl⟩
      · intro success
        obtain ⟨accumulating, same⟩ := success
        exact ⟨(), accumulating, by rw [same]; rfl⟩

theorem extended_importItem (scope : Scope) (name : Name) (type : TypeExpr) (item : ItemType) :
    scope.extended (.importItem name type) item =
      { scope with
        spaces := scope.spaces.push item item.kind
        imports := scope.imports ++ [(name, item)] } := by
  simp [extended, Definition.space, Definition.importEntry, Definition.exportEntry]

theorem extended_exportItem (scope : Scope) (name : Name) (reference : ItemRef) (item : ItemType) :
    scope.extended (.exportItem name reference) item =
      { scope with exports := scope.exports ++ [(name, item)] } := by
  simp [extended, Definition.space, Definition.importEntry, Definition.exportEntry]

/-- A definition that neither imports nor exports records its item in a space. -/
theorem record_eq_ok_iff_of_recordIn (noImport : definition.importEntry item = none)
    (noExport : definition.exportEntry item = none)
    (same : scope.record definition item = scope.recordIn item (definition.space item)) :
    scope.record definition item = .ok next ↔
      scope.Takes definition item ∧ next = scope.extended definition item := by
  rw [same, recordIn_eq_ok_iff]
  simp only [extended, noImport, noExport, Option.toList_none, List.append_nil]
  constructor
  · intro success
    obtain ⟨accumulating, fits, extended⟩ := success
    exact ⟨⟨accumulating, fits, by simp [noImport], by simp [noExport]⟩, extended⟩
  · intro success
    obtain ⟨takes, extended⟩ := success
    exact ⟨takes.accumulating, takes.fits, extended⟩

theorem record_eq_ok_iff :
    scope.record definition item = .ok next ↔
      scope.Takes definition item ∧ next = scope.extended definition item := by
  cases definition with
  | importItem name type =>
      simp only [record, bind_eq_ok_iff, extended_importItem]
      constructor
      · intro success
        obtain ⟨⟨index, declared⟩, success, same⟩ := success
        obtain ⟨accumulating, fresh, _, extended⟩ := declareImport_eq_ok_iff.mp success
        cases same
        refine ⟨⟨accumulating, ?_, ?_, by simp [Definition.exportEntry]⟩, extended⟩
        · intro kind space
          exact Or.inr (Option.some.inj space)
        · intro entry named
          cases named
          exact fresh
      · intro success
        obtain ⟨takes, extended⟩ := success
        have fresh := takes.newImport _ rfl
        have declared := declareImport_eq_ok_iff.mpr ⟨takes.accumulating, fresh, rfl, extended⟩
        exact ⟨_, declared, rfl⟩
  | exportItem name reference =>
      rw [record, declareExport_eq_ok_iff, extended_exportItem]
      constructor
      · intro success
        obtain ⟨accumulating, fresh, extended⟩ := success
        refine ⟨⟨accumulating, by simp [Definition.space], by simp [Definition.importEntry], ?_⟩,
          extended⟩
        intro entry named
        cases named
        exact fresh
      · intro success
        obtain ⟨takes, extended⟩ := success
        exact ⟨takes.accumulating, takes.newExport _ rfl, extended⟩
  | typeItem type => exact record_eq_ok_iff_of_recordIn rfl rfl rfl
  | nested name definitions => exact record_eq_ok_iff_of_recordIn rfl rfl rfl
  | absent => exact record_eq_ok_iff_of_recordIn rfl rfl rfl
  | instantiate moduleIndex arguments => exact record_eq_ok_iff_of_recordIn rfl rfl rfl
  | tuple exports => exact record_eq_ok_iff_of_recordIn rfl rfl rfl
  | exportAlias target => exact record_eq_ok_iff_of_recordIn rfl rfl rfl
  | outerAlias target => exact record_eq_ok_iff_of_recordIn rfl rfl rfl

theorem get_extended (scope : Scope) (definition : Definition) (item : ItemType)
    (kind : ItemKind) :
    (scope.extended definition item).spaces.get kind =
      scope.spaces.get kind ++ if definition.space item = some kind then [item] else [] := by
  simp only [extended]
  cases definition.space item with
  | none => simp
  | some space =>
      simp only [Option.elim_some, Spaces.get_push, Option.some.injEq]
      by_cases same : kind = space
      · simp [same]
      · simp [same, Ne.symm same]

/-- What holds of a scope all along: the spaces other than that of types hold items of their own
kind, and no name is imported or exported twice. -/
structure Kept (scope : Scope) : Prop where
  kinds : ∀ kind, kind ≠ .type → ∀ item ∈ scope.spaces.get kind, item.kind = kind
  distinctImports : (scope.imports.map Prod.fst).Nodup
  distinctExports : (scope.exports.map Prod.fst).Nodup

theorem Kept.opened (path : Path) : (Scope.opened path).Kept where
  kinds := by
    intro kind _ item inside
    cases kind <;> exact absurd inside List.not_mem_nil
  distinctImports := List.nodup_nil
  distinctExports := List.nodup_nil

theorem Kept.extended (kept : scope.Kept) (takes : scope.Takes definition item) :
    (scope.extended definition item).Kept where
  kinds := by
    intro kind notType other inside
    rw [get_extended, List.mem_append] at inside
    rcases inside with before | new
    · exact kept.kinds kind notType other before
    · by_cases space : definition.space item = some kind
      · rw [if_pos space, List.mem_singleton] at new
        rw [new]
        exact (takes.fits kind space).resolve_left notType
      · rw [if_neg space] at new
        exact absurd new List.not_mem_nil
  distinctImports := Entries.nodup_append_new kept.distinctImports takes.newImport
  distinctExports := Entries.nodup_append_new kept.distinctExports takes.newExport

end Scope

/-! ## The two halves of a check -/

namespace Validation

variable {options : Options} {outer : List Enclosing} {scope next : Scope}
  {definition : Definition} {item : ItemType}

theorem result_addModule (outer : List Enclosing) (scope : Scope) (type : ModuleType) :
    (scope.addModule outer type).result = scope.recordIn (.ofModule type) (some .module) := by
  rw [Scope.addModule, Traced.result_bind, Traced.result_ofExcept]
  rfl

theorem result_addInstance (outer : List Enclosing) (scope : Scope) (type : InstanceType) :
    (scope.addInstance outer type).result = scope.recordIn (.inst type) (some .inst) := by
  rw [Scope.addInstance, Traced.result_bind, Traced.result_ofExcept]
  rfl

theorem result_define_eq (options : Options) (outer : List Enclosing) (scope : Scope)
    (definition : Definition) :
    (define options outer scope definition).result =
      itemOf options outer scope definition >>= scope.record definition := by
  cases definition with
  | typeItem type =>
      rw [define, Scope.addType, Traced.result_bind, Traced.result_ofExcept, itemOf]
      congr 1
      funext item
      rw [Traced.result_bind, Traced.result_ofExcept]
      rfl
  | importItem name type =>
      rw [define, Scope.addImport, Traced.result_bind, Traced.result_ofExcept, itemOf]
      congr 1
      funext item
      rw [Traced.result_bind, Traced.result_ofExcept]
      rfl
  | nested name definitions =>
      rw [define, Traced.result_bind, itemOf, bind_assoc]
      congr 1
      funext type
      rw [result_addModule, pure_bind]
      rfl
  | absent => rfl
  | instantiate moduleIndex arguments =>
      simp only [define, Scope.addInstantiation, Traced.result_bind, Traced.result_ofExcept, itemOf,
        bind_assoc, pure_bind, result_addInstance]
      rfl
  | tuple exports =>
      simp only [define, Scope.addTuple, Traced.result_bind, Traced.result_ofExcept, itemOf,
        bind_assoc, pure_bind, result_addInstance]
      rfl
  | exportAlias target =>
      simp only [define, Scope.aliasExport, Traced.result_bind, Traced.result_ofExcept, itemOf,
        bind_assoc]
      rfl
  | outerAlias target =>
      simp only [define, Scope.aliasOuter, Traced.result_bind, Traced.result_ofExcept, itemOf,
        bind_assoc, pure_bind]
      -- The space is that of the alias, which is known only once the alias has been found.
      cases found : scope.findOuter outer target with
      | error fault => rfl
      | ok triple =>
          obtain ⟨kind, ancestor, item⟩ := triple
          have known := (Scope.findOuter_eq_ok_iff.mp ⟨ancestor, found⟩).1
          have recorded : scope.record (.outerAlias target) item =
              scope.recordIn item (some kind) := by
            change scope.recordIn item target.kind.outerKind? = _
            rw [known]
          change _ = scope.record (.outerAlias target) item
          rw [recorded]
          rfl
  | exportItem name reference =>
      rw [define, Scope.addExport, Traced.result_bind, Traced.result_ofExcept, itemOf]
      congr 1
      funext item
      rw [Traced.result_bind, Traced.result_ofExcept, Scope.record]
      cases scope.declareExport name item <;> rfl

/-- The type of an item is found if and only if the rule of its definition gives it. What a nested
module comes to is left to the caller. -/
theorem itemOf_eq_ok_iff {inner : ModuleType}
    (nested : ∀ name definitions, definition = .nested name definitions →
      itemOf options outer scope definition = .ok (.ofModule inner)) :
    itemOf options outer scope definition = .ok item ↔
      Rule scope.view (outer.map Enclosing.view) inner definition item := by
  cases definition with
  | typeItem type =>
      rw [itemOf, Scope.resolveType_eq_ok_iff]
      constructor
      · exact .typeItem
      · intro rule
        cases rule with
        | typeItem spelt => exact spelt
  | importItem name type =>
      rw [itemOf, Scope.resolveType_eq_ok_iff]
      constructor
      · exact .importItem
      · intro rule
        cases rule with
        | importItem spelt => exact spelt
  | nested name definitions =>
      rw [nested name definitions rfl, Except.ok.injEq]
      constructor
      · intro same
        exact same ▸ .nested
      · intro rule
        cases rule with
        | nested => rfl
  | absent =>
      constructor
      · intro success
        cases success
      · intro rule
        cases rule
  | instantiate moduleIndex arguments =>
      simp only [itemOf, bind_eq_ok_iff, Instantiation.checkNames_eq_ok_iff,
        Scope.moduleAt_eq_ok_iff, Scope.resolveItems_eq_ok_iff, ModuleType.instantiate_eq_ok_iff]
      constructor
      · intro success
        obtain ⟨_, distinct, type, target, items, named, _, ⟨_, supplied, same⟩, found⟩ := success
        cases found
        exact same ▸ .instantiate target distinct named supplied
      · intro rule
        cases rule with
        | @instantiate _ _ type items target distinct named supplied =>
            have sameNames : items.map Prod.fst = arguments.map Prod.fst := named.names_eq.symm
            exact ⟨(), distinct, type, target, items, named, _,
              ⟨sameNames ▸ distinct, supplied, rfl⟩, rfl⟩
  | tuple exports =>
      simp only [itemOf, InstanceType.ofItems, bind_eq_ok_iff, Instantiation.checkNames_eq_ok_iff,
        Scope.resolveItems_eq_ok_iff]
      constructor
      · intro success
        obtain ⟨_, distinct, items, named, _, ⟨_, _, same⟩, found⟩ := success
        cases found
        cases same
        exact .tuple distinct named
      · intro rule
        cases rule with
        | @tuple _ items distinct named =>
            have sameNames : items.map Prod.fst = exports.map Prod.fst := named.names_eq.symm
            exact ⟨(), distinct, items, named, _, ⟨(), sameNames ▸ distinct, rfl⟩, rfl⟩
  | exportAlias target =>
      rw [itemOf, Scope.findExport_eq_ok_iff]
      constructor
      · intro success
        obtain ⟨exports, source, exported, kinds⟩ := success
        exact .exportAlias source exported kinds
      · intro rule
        cases rule with
        | exportAlias source exported kinds => exact ⟨_, source, exported, kinds⟩
  | outerAlias target =>
      simp only [itemOf, bind_eq_ok_iff]
      constructor
      · intro success
        obtain ⟨⟨kind, ancestor, found⟩, success, same⟩ := success
        cases same
        obtain ⟨known, view, shown, visible⟩ :=
          Scope.findOuter_eq_ok_iff.mp ⟨ancestor, success⟩
        obtain ⟨aliased, code⟩ := KindCode.outerKind?_eq_some_iff.mp known
        exact .outerAlias aliased code shown visible
      · intro rule
        cases rule with
        | outerAlias aliased code shown visible =>
            have known := KindCode.outerKind?_eq_some_iff.mpr ⟨aliased, code⟩
            obtain ⟨ancestor, success⟩ :=
              Scope.findOuter_eq_ok_iff.mpr ⟨known, _, shown, visible⟩
            exact ⟨_, success, rfl⟩
  | exportItem name reference =>
      rw [itemOf, Scope.resolveItem_eq_ok_iff]
      constructor
      · exact .exportItem
      · intro rule
        cases rule with
        | exportItem named => exact named

theorem define_eq_ok_iff {inner : ModuleType}
    (nested : ∀ name definitions, definition = .nested name definitions →
      itemOf options outer scope definition = .ok (.ofModule inner)) :
    (define options outer scope definition).result = .ok next ↔
      ∃ item, Rule scope.view (outer.map Enclosing.view) inner definition item ∧
        scope.Takes definition item ∧ next = scope.extended definition item := by
  simp only [result_define_eq, bind_eq_ok_iff, itemOf_eq_ok_iff nested, Scope.record_eq_ok_iff]

/-! ## Runs -/

theorem result_defineAll_cons (options : Options) (outer : List Enclosing) (scope : Scope)
    (definition : Definition) (rest : List Definition) :
    (defineAll options outer scope (definition :: rest)).result =
      (define options outer scope definition).result >>= fun next =>
        (defineAll options outer next rest).result := by
  rw [defineAll, Traced.result_bind, Scope.report, Traced.result_emit, ← Traced.result_bind]
  rfl

/-- Definitions are checked in order, so a run splits anywhere. -/
theorem result_defineAll_append (options : Options) (outer : List Enclosing) (scope : Scope)
    (first second : List Definition) :
    (defineAll options outer scope (first ++ second)).result =
      (defineAll options outer scope first).result >>= fun next =>
        (defineAll options outer next second).result := by
  induction first generalizing scope with
  | nil => rfl
  | cons definition rest ih =>
      rw [List.cons_append, result_defineAll_cons, result_defineAll_cons, bind_assoc]
      congr 1
      funext next
      exact ih next

theorem checkNesting_eq_ok_iff {done : Unit} :
    checkNesting options outer scope = .ok done ↔ outer.length ≤ options.nesting := by
  unfold checkNesting
  by_cases shallow : outer.length ≤ options.nesting
  · simp [shallow]
  · simp [shallow, Scope.reject]

theorem freeze_eq_ok_iff {type : ModuleType} :
    (∃ frozen, scope.freeze = .ok (type, frozen)) ↔
      scope.state = .accumulating ∧ type = ⟨scope.imports, scope.exports⟩ := by
  simp only [Scope.freeze, bind_eq_ok_iff, Scope.requireAccumulating_eq_ok_iff]
  constructor
  · intro success
    obtain ⟨_, _, accumulating, same⟩ := success
    cases same
    exact ⟨accumulating, rfl⟩
  · intro success
    obtain ⟨accumulating, same⟩ := success
    subst same
    exact ⟨_, (), accumulating, rfl⟩

/-- A module is accepted if it is not nested too deep and its definitions are accepted; its type
are the names collected. -/
theorem inScope_eq_ok_iff {path : Path} {body : Scope → Traced Fault Scope} {type : ModuleType} :
    (inScope options outer path body).result = .ok type ↔
      outer.length ≤ options.nesting ∧ ∃ filled, (body (.opened path)).result = .ok filled ∧
        filled.state = .accumulating ∧ type = ⟨filled.imports, filled.exports⟩ := by
  have started : Scope.start { path := path } = .ok (.opened path) := rfl
  rw [result_inScope, started]
  simp only [bind_eq_ok_iff, checkNesting_eq_ok_iff]
  constructor
  · intro success
    obtain ⟨_, opened, _, shallow, filled, run, ⟨found, frozen⟩, freezes, same⟩ := success
    cases opened
    cases same
    exact ⟨shallow, filled, run, freeze_eq_ok_iff.mp ⟨frozen, freezes⟩⟩
  · intro success
    obtain ⟨shallow, filled, run, freezes⟩ := success
    obtain ⟨frozen, freezes⟩ := freeze_eq_ok_iff.mpr freezes
    exact ⟨_, rfl, (), shallow, filled, run, (type, frozen), freezes, rfl⟩

theorem result_inScope_of_shallow {path : Path} {body : Scope → Traced Fault Scope}
    (shallow : outer.length ≤ options.nesting) :
    (inScope options outer path body).result =
      (body (.opened path)).result >>= fun filled => do return (← filled.freeze).1 := by
  have started : Scope.start { path := path } = .ok (.opened path) := rfl
  have nests : checkNesting options outer (.opened path) = .ok () :=
    checkNesting_eq_ok_iff.mpr shallow
  rw [result_inScope, started]
  change (checkNesting options outer (.opened path) >>= _) = _
  rw [nests]
  rfl

end Validation

end Linkage
