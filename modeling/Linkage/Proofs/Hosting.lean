import Linkage.Proofs.Catalogue
import Linkage.Proofs.Context
import Linkage.Proofs.Nesting
import Linkage.Proofs.Preservation

/-!
# Instantiation inside and outside modules

A registered module is instantiated with types that are at hand. Inside a module the types have to
be imported first, the module nested, and the arguments be given by kind and index.
`ModuleDef.hosted` is the module that does all this, and `result_validate_hosted` says that its
check comes to the instantiation at its end: whatever goes wrong goes wrong there.
-/

set_option autoImplicit false

namespace Linkage

/-! ## Names of arguments -/

namespace Instantiation

variable {α β : Type}

theorem checkNames_congr {arguments : List (Name × α)} {others : List (Name × β)}
    (same : arguments.map Prod.fst = others.map Prod.fst) (context : Name) :
    checkNames context arguments = checkNames context others := by
  rw [checkNames, checkNames, Entries.repeated?, Entries.repeated?, same]

/-- An instantiation looks at the names itself, so it makes no difference if they were looked at
before. -/
theorem checkNames_bind_instantiate (context : Name) (type : ModuleType) (arguments : Arguments) :
    (checkNames context arguments >>= fun _ => (type.instantiate context arguments).result) =
      (type.instantiate context arguments).result := by
  simp only [ModuleType.instantiate, Traced.result_bind, Traced.result_ofExcept, Traced.result_emit]
  cases checkNames context arguments with
  | error fault => rfl
  | ok done => rfl

end Instantiation

/-! ## The module around -/

namespace ModuleDef

def importAll (entries : InstanceType) : List Definition :=
  entries.map fun entry => .importItem entry.1 (.complete entry.2)

def indexAfter (kind : ItemKind) (types : List ItemType) : Nat :=
  (types.filter fun type => type.kind = kind).length

def references (before : List ItemType) : Arguments → List (Name × ItemRef)
  | [] => []
  | (name, type) :: rest =>
      (name, ⟨.ofKind type.kind, indexAfter type.kind before⟩) ::
        references (before ++ [type]) rest

def useNested (module : ModuleDef) (arguments : Arguments) (exported : Name) : List Definition :=
  let types := arguments.map Prod.snd
  [module.asNested, .instantiate (indexAfter .module types) (references [] arguments),
    .exportItem exported ⟨.ofKind .inst, indexAfter .inst types⟩]

/-- A module that imports items of the types of the arguments, instantiates the module with them and
exports the instance. -/
def hosted (module : ModuleDef) (name : Name) (imports : List Name) (arguments : Arguments)
    (exported : Name) : ModuleDef where
  name := name
  definitions :=
    importAll (imports.zip (arguments.map Prod.snd)) ++ module.useNested arguments exported

end ModuleDef

namespace Scope

def withInstance (scope : Scope) (exports : InstanceType) : Scope :=
  { scope with spaces := scope.spaces.push (.inst exports) .inst }

/-- A scope that has imported the entries and done nothing else. -/
structure HasImported (scope : Scope) (path : Path) (entries : InstanceType) : Prop where
  path : scope.path = path
  accumulating : scope.state = .accumulating
  imports : scope.imports = entries
  exports : scope.exports = []
  spaces : ∀ kind, scope.spaces.get kind =
    (entries.map Prod.snd).filter fun type => type.kind = kind

variable {scope : Scope} {path : Path} {entries : InstanceType}

theorem HasImported.opened (path : Path) : (Scope.opened path).HasImported path [] where
  path := rfl
  accumulating := rfl
  imports := rfl
  exports := rfl
  spaces := by
    intro kind
    cases kind <;> rfl

theorem HasImported.extended (has : scope.HasImported path entries) (name : Name)
    (item : ItemType) :
    (scope.extended (.importItem name (.complete item)) item).HasImported path
      (entries ++ [(name, item)]) := by
  rw [extended_importItem]
  refine ⟨has.path, has.accumulating, by rw [has.imports], has.exports, ?_⟩
  intro kind
  rw [Spaces.get_push, List.map_append, List.filter_append, has.spaces, has.spaces]
  by_cases same : kind = item.kind
  · simp [same]
  · simp [same, Ne.symm same]

end Scope

namespace Validation

variable {options : Options} {outer : List Enclosing} {scope : Scope} {path : Path}

theorem result_define_import (accumulating : scope.state = .accumulating) {name : Name}
    {item : ItemType} (sound : item.Sound) (new : name ∉ scope.imports.map Prod.fst) :
    (define options outer scope (.importItem name (.complete item))).result =
      .ok (scope.extended (.importItem name (.complete item)) item) := by
  have found : itemOf options outer scope (.importItem name (.complete item)) = .ok item :=
    Scope.checkType_eq_ok_iff.mpr ⟨sound, rfl⟩
  rw [result_define_eq, found, Scope.extended_importItem]
  change (scope.declareImport name item >>= _) = _
  rw [Scope.declareImport_eq_ok_iff.mpr ⟨accumulating, new, rfl, rfl⟩]
  rfl

theorem exists_hasImported {before entries : InstanceType}
    (sound : ∀ entry ∈ entries, entry.2.Sound)
    (distinct : ((before ++ entries).map Prod.fst).Nodup)
    (has : scope.HasImported path before) :
    ∃ filled, (defineAll options outer scope (ModuleDef.importAll entries)).result = .ok filled ∧
      filled.HasImported path (before ++ entries) := by
  induction entries generalizing before scope with
  | nil => exact ⟨scope, rfl, by rwa [List.append_nil]⟩
  | cons entry rest ih =>
      have new : entry.1 ∉ scope.imports.map Prod.fst := by
        rw [has.imports]
        exact Entries.notMem_of_nodup distinct
      have whole : before ++ entry :: rest = (before ++ [entry]) ++ rest := by simp
      rw [whole] at distinct ⊢
      have soundRest : ∀ other ∈ rest, other.2.Sound := fun other inside =>
        sound other (List.mem_cons_of_mem entry inside)
      obtain ⟨filled, run, hasAll⟩ := ih soundRest distinct (has.extended entry.1 entry.2)
      refine ⟨filled, ?_, hasAll⟩
      rw [ModuleDef.importAll, List.map_cons, result_defineAll_cons,
        result_define_import has.accumulating (sound entry List.mem_cons_self) new]
      exact run

end Validation

namespace ModuleDef

variable {options : Validation.Options} {outer : List Enclosing} {scope : Scope}

theorem getElem?_indexAfter {before rest : List ItemType} {type : ItemType} {kind : ItemKind}
    (same : type.kind = kind) :
    ((before ++ type :: rest).filter fun other => other.kind = kind)[indexAfter kind before]? =
      some type := by
  rw [List.filter_append, List.filter_cons_of_pos (by simpa using same), indexAfter,
    List.getElem?_append_right (Nat.le_refl _), Nat.sub_self, List.getElem?_cons_zero]

/-- The references name the types they were made for, if these stand in their spaces in order. -/
theorem namesEach_references {view : View} {before : List ItemType} {arguments : Arguments}
    (shown : ∀ kind index item,
      ((before ++ arguments.map Prod.snd).filter fun type => type.kind = kind)[index]? = some item →
        view kind index = some item) : NamesEach view (references before arguments) arguments := by
  induction arguments generalizing before with
  | nil => exact .nil
  | cons argument rest ih =>
      refine .cons ⟨rfl, argument.2.kind, argument.2.kind_ne_type, rfl, ?_⟩ (ih ?_)
      · exact shown _ _ _ (getElem?_indexAfter rfl)
      · intro kind index item found
        rw [List.append_assoc] at found
        exact shown kind index item found

/-- An instantiation in a scope is that of the types found, in the name of the scope. -/
theorem itemOf_instantiate {type : ModuleType} {moduleIndex : Nat} {arguments : Arguments}
    {references : List (Name × ItemRef)}
    (target : scope.view .module moduleIndex = some (.ofModule type))
    (named : NamesEach scope.view references arguments) :
    Validation.itemOf options outer scope (.instantiate moduleIndex references) =
      (type.instantiate scope.name arguments).result.map .inst := by
  rw [Validation.itemOf, Instantiation.checkNames_congr named.names_eq scope.name,
    Scope.moduleAt_eq_ok_iff.mpr target, ← Instantiation.checkNames_bind_instantiate]
  cases Instantiation.checkNames scope.name arguments with
  | error fault => rfl
  | ok done =>
      change (scope.resolveItems .argument references >>= _) = _
      rw [Scope.resolveItems_eq_ok_iff.mpr named]
      change (type.instantiate scope.name arguments).result >>= _ =
        (type.instantiate scope.name arguments).result.map _
      cases (type.instantiate scope.name arguments).result <;> rfl

theorem result_define_instantiate {type : ModuleType} {moduleIndex : Nat} {arguments : Arguments}
    {references : List (Name × ItemRef)} (accumulating : scope.state = .accumulating)
    (target : scope.view .module moduleIndex = some (.ofModule type))
    (named : NamesEach scope.view references arguments) :
    (Validation.define options outer scope (.instantiate moduleIndex references)).result =
      (type.instantiate scope.name arguments).result.map scope.withInstance := by
  rw [Validation.result_define_eq, itemOf_instantiate target named]
  cases (type.instantiate scope.name arguments).result with
  | error fault => rfl
  | ok exports => exact Scope.recordIn_own accumulating (.inst exports)

theorem result_define_exportItem {name : Name} {reference : ItemRef} {item : ItemType}
    (named : Names scope.view reference item) (accumulating : scope.state = .accumulating)
    (new : name ∉ scope.exports.map Prod.fst) :
    (Validation.define options outer scope (.exportItem name reference)).result =
      .ok { scope with exports := scope.exports ++ [(name, item)] } := by
  have found : Validation.itemOf options outer scope (.exportItem name reference) = .ok item :=
    Scope.resolveItem_eq_ok_iff.mpr named
  rw [Validation.result_define_eq, found]
  exact Scope.declareExport_eq_ok_iff.mpr ⟨accumulating, new, rfl⟩

/-- What is left of the module around after its imports comes to the instantiation. -/
theorem result_defineAll_useNested {type : ModuleType} {module : ModuleDef} {path : Path}
    {entries : InstanceType} {arguments : Arguments}
    (types : entries.map Prod.snd = arguments.map Prod.snd)
    (accepted : (module.validateIn options outer scope).result = .ok type)
    (has : scope.HasImported path entries) (exported : Name) :
    (Validation.defineAll options outer scope (module.useNested arguments exported)).result =
      (type.instantiate path.text arguments).result.map fun exports =>
        { (scope.withModules [type]).withInstance exports with
          exports := [(exported, .inst exports)] } := by
  have spaces : ∀ kind, scope.spaces.get kind =
      (arguments.map Prod.snd).filter fun type => type.kind = kind := by
    intro kind
    rw [has.spaces, types]
  have length : ∀ kind, (scope.spaces.get kind).length =
      indexAfter kind (arguments.map Prod.snd) := by
    intro kind
    rw [spaces, indexAfter]
  have accumulating : (scope.withModules [type]).state = .accumulating := has.accumulating
  have name : (scope.withModules [type]).name = path.text := by
    rw [← has.path]
    rfl
  have target : (scope.withModules [type]).view .module
      (indexAfter .module (arguments.map Prod.snd)) = some (.ofModule type) := by
    rw [← length]
    exact List.getElem?_concat_length
  have named : NamesEach (scope.withModules [type]).view (references [] arguments) arguments := by
    apply namesEach_references
    intro kind index item found
    apply (Scope.Grows.withModules scope [type]).view_eq_some
    rw [Scope.view, spaces]
    exact found
  rw [useNested, Validation.result_defineAll_cons,
    result_define_asNested has.accumulating accepted]
  change (Validation.defineAll options outer (scope.withModules [type]) _).result = _
  rw [Validation.result_defineAll_cons, result_define_instantiate accumulating target named, name]
  cases (type.instantiate path.text arguments).result with
  | error fault => rfl
  | ok exports =>
      have found : Names ((scope.withModules [type]).withInstance exports).view
          ⟨.ofKind .inst, indexAfter .inst (arguments.map Prod.snd)⟩ (.inst exports) := by
        refine ⟨.inst, by decide, rfl, ?_⟩
        rw [← length]
        exact List.getElem?_concat_length
      have none : ((scope.withModules [type]).withInstance exports).exports = [] := has.exports
      have new : exported ∉
          ((scope.withModules [type]).withInstance exports).exports.map Prod.fst := by
        rw [none]
        exact List.not_mem_nil
      change (Validation.defineAll options outer
        ((scope.withModules [type]).withInstance exports) _).result = _
      rw [Validation.result_defineAll_cons, result_define_exportItem found accumulating new, none]
      rfl

/-- The check of the module around comes to the instantiation. -/
theorem result_validate_hosted {type : ModuleType} {module : ModuleDef} {imports : List Name}
    {arguments : Arguments} (accepted : (module.validate options).result = .ok type)
    (room : 1 + module.height ≤ options.nesting) (sound : ∀ argument ∈ arguments, argument.2.Sound)
    (distinct : imports.Nodup) (length : imports.length = arguments.length) {name exported : Name}
    {around : ModuleDef} (hosted : module.hosted name imports arguments exported = around) :
    (around.validate options).result =
      (type.instantiate around.path.text arguments).result.map fun exports =>
        ⟨imports.zip (arguments.map Prod.snd), [(exported, .inst exports)]⟩ := by
  have definitions : around.definitions =
      importAll (imports.zip (arguments.map Prod.snd)) ++ module.useNested arguments exported := by
    rw [← hosted]
    rfl
  have lengths : imports.length = (arguments.map Prod.snd).length := by rw [length, List.length_map]
  have types : (imports.zip (arguments.map Prod.snd)).map Prod.snd = arguments.map Prod.snd :=
    List.map_snd_zip (Nat.le_of_eq lengths.symm)
  have names : (imports.zip (arguments.map Prod.snd)).map Prod.fst = imports :=
    List.map_fst_zip (Nat.le_of_eq lengths)
  have soundEntries : ∀ entry ∈ imports.zip (arguments.map Prod.snd), entry.2.Sound := by
    intro entry inside
    obtain ⟨argument, among, same⟩ := List.mem_map.mp (types ▸ List.mem_map_of_mem inside)
    exact same ▸ sound argument among
  have distinctNames : (([] ++ imports.zip (arguments.map Prod.snd)).map Prod.fst).Nodup := by
    rw [List.nil_append, names]
    exact distinct
  have imported : ∃ filled, (Validation.defineAll options [] (.opened around.path)
      (importAll (imports.zip (arguments.map Prod.snd)))).result = .ok filled ∧
        filled.HasImported around.path (imports.zip (arguments.map Prod.snd)) :=
    Validation.exists_hasImported soundEntries distinctNames (.opened around.path)
  obtain ⟨filled, run, has⟩ := imported
  have persists := @persists_validate options [] module filled (by rw [List.length_nil]; omega)
  rw [accepted] at persists
  rw [validate, Validation.result_inScope_of_shallow (Nat.zero_le _), definitions,
    Validation.result_defineAll_append, run]
  change (Validation.defineAll options [] filled _).result >>= _ = _
  rw [result_defineAll_useNested types persists.eq_ok has exported]
  cases (type.instantiate around.path.text arguments).result with
  | error fault => rfl
  | ok exports =>
      have freezes : ∃ frozen, Scope.freeze { (filled.withModules [type]).withInstance exports with
          exports := [(exported, .inst exports)] } =
            .ok (⟨imports.zip (arguments.map Prod.snd), [(exported, .inst exports)]⟩, frozen) := by
        refine Validation.freeze_eq_ok_iff.mpr ⟨has.accumulating, ?_⟩
        rw [← has.imports]
        rfl
      obtain ⟨frozen, freezes⟩ := freezes
      change (Scope.freeze _ >>= _) = _
      rw [freezes]
      rfl

end ModuleDef

/-! ## Registered modules -/

namespace Catalogue

open Registry (Op)

theorem register_eq_ok {catalogue : Catalogue} {module : ModuleDef} (named : module.name ≠ [])
    (free : catalogue.isTaken module.name = false) :
    catalogue.register (some module) =
      .ok { catalogue with modules := catalogue.modules ++ [module] } := by
  have notEmpty : module.name.isEmpty = false := by simpa using named
  simp [register, notEmpty, free]

theorem after_extends (catalogue : Catalogue) (op : Op) :
    (catalogue.after op).nesting = catalogue.nesting ∧
      catalogue.modules <+: (catalogue.after op).modules := by
  cases op with
  | register module =>
      rw [after]
      cases registers : catalogue.register module with
      | error fault => exact ⟨rfl, List.prefix_rfl⟩
      | ok next =>
          cases module with
          | none => cases registers
          | some module =>
              rw [register] at registers
              split at registers
              · cases registers
              · split at registers
                · cases registers
                · cases registers
                  exact ⟨rfl, List.prefix_append _ _⟩
  | registerHost name items =>
      rw [after]
      cases buildHost name items with
      | error fault => exact ⟨rfl, List.prefix_rfl⟩
      | ok host =>
          change (Except.toOption (catalogue.registerHost host) |>.getD catalogue).nesting = _ ∧
            _ <+: (Except.toOption (catalogue.registerHost host) |>.getD catalogue).modules
          rw [registerHost]
          split
          · exact ⟨rfl, List.prefix_rfl⟩
          · exact ⟨rfl, List.prefix_rfl⟩
  | _ => exact ⟨rfl, List.prefix_rfl⟩

theorem run_extends (catalogue : Catalogue) (ops : List Op) :
    (catalogue.run ops).nesting = catalogue.nesting ∧
      catalogue.modules <+: (catalogue.run ops).modules := by
  induction ops generalizing catalogue with
  | nil => exact ⟨rfl, List.prefix_rfl⟩
  | cons op rest ih =>
      obtain ⟨nesting, modules⟩ := catalogue.after_extends op
      obtain ⟨nestingLater, modulesLater⟩ := ih (catalogue.after op)
      exact ⟨nestingLater.trans nesting, modules.trans modulesLater⟩

theorem run_append (catalogue : Catalogue) (first second : List Op) :
    catalogue.run (first ++ second) = (catalogue.run first).run second := List.foldl_append

/-- A module is found under its name ever after, if the name was free. -/
theorem moduleType_of_register {catalogue : Catalogue} {module : ModuleDef}
    (named : module.name ≠ []) (free : catalogue.isTaken module.name = false) (after : List Op) :
    (catalogue.run (.register (some module) :: after)).moduleType module.name =
      (module.outcome catalogue.nesting).mapError .check := by
  have registered : catalogue.after (.register (some module)) =
      { catalogue with modules := catalogue.modules ++ [module] } := by
    rw [Catalogue.after, register_eq_ok named free]
    rfl
  have before : catalogue.modules.find? (fun other => other.name = module.name) = none := by
    rw [isTaken, Bool.or_eq_false_iff, List.any_eq_false] at free
    exact List.find?_eq_none.mpr free.1
  have found : (catalogue.modules ++ [module]).find? (fun other => other.name = module.name) =
      some module := by
    rw [List.find?_append, before]
    simp
  obtain ⟨nesting, modules⟩ := Catalogue.run_extends
    { catalogue with modules := catalogue.modules ++ [module] } after
  change (Catalogue.run (catalogue.after _) after).moduleType _ = _
  rw [registered, moduleType, modules.find?_eq_some found, nesting]

theorem mapM_item (catalogue : Catalogue) (arguments : Arguments) :
    (arguments.map fun argument => ArgumentSource.item argument.1 argument.2).mapM
      catalogue.argument = .ok arguments := by
  induction arguments with
  | nil => rfl
  | cons argument rest ih =>
      rw [List.map_cons, List.mapM_cons, ih]
      rfl

end Catalogue

namespace Registry

variable {nesting : Nat} {sideBySide : Bool} {channels : Option Channels} {before : List Op}
  {module : ModuleDef} {type : ModuleType}

def atHand (arguments : Arguments) : List ArgumentSource :=
  arguments.map fun argument => .item argument.1 argument.2

/-- A registered module is instantiated with the type that it has, in its own name. -/
theorem result_step_instantiate (named : module.name ≠ [])
    (free : (run { nesting := nesting, sideBySide := sideBySide, channels := channels }
      before).isTaken module.name = false)
    (accepted : module.outcome nesting = .ok type) (after : List Op) (arguments : Arguments) :
    ((run { nesting := nesting, sideBySide := sideBySide, channels := channels }
      (before ++ .register (some module) :: after)).step
        (.instantiate module.name (atHand arguments))).2.result =
      ((type.instantiate module.name arguments).result.mapError .check).map
        (.instantiated arguments.length) := by
  have start := Faithful.empty nesting sideBySide channels
  obtain ⟨faithfulBefore, sameBefore⟩ := start.run before
  obtain ⟨faithful, same⟩ := start.run (before ++ .register (some module) :: after)
  rw [faithfulBefore.isTaken_eq, sameBefore] at free
  have limit : (Catalogue.run ⟨nesting, [], []⟩ before).nesting = nesting :=
    (Catalogue.run_extends _ before).1
  have found := Catalogue.moduleType_of_register named free after
  change _ = (module.outcome (Catalogue.run ⟨nesting, [], []⟩ before).nesting).mapError _ at found
  rw [limit, accepted] at found
  rw [(faithful.answers_step _).result_eq, same, Catalogue.run_append, Catalogue.answer, atHand,
    Catalogue.mapM_item]
  change (Catalogue.instantiate _ module.name arguments >>= _) = _
  rw [Catalogue.instantiate, found]
  change ((type.instantiate module.name arguments).result.mapError _ >>= _) = _
  cases (type.instantiate module.name arguments).result <;> rfl

end Registry

/-- **Instantiation is the same inside and outside modules.** Let a module with a name be accepted
on its own. Instantiate it in any registry in which the name was free when it was registered, with
arguments of any names and of well-formed types; and let another module import items of these types,
nest the module, instantiate it with the imports for arguments and export the instance. The other
module is accepted exactly if the instantiation succeeds. Then the instance exported is the one
instantiated, and otherwise the cause of the errors is the same. -/
theorem ModuleDef.hosted_agrees_with_registry (module : ModuleDef) (alone : Validation.Options)
    (type : ModuleType) (named : module.name ≠ [])
    (accepted : (module.validate alone).result = .ok type) (options : Validation.Options)
    (room : 1 + module.height ≤ options.nesting) (arguments : Arguments)
    (wellFormed : ∀ argument ∈ arguments, argument.2.isWellFormed = true) (imports : List Name)
    (distinct : imports.Nodup) (length : imports.length = arguments.length)
    (name exported : Name) (sideBySide : Bool) (channels : Option Channels)
    (before after : List Registry.Op)
    (free : (Registry.run
      { nesting := options.nesting, sideBySide := sideBySide, channels := channels }
      before).isTaken module.name = false) :
    let around := module.hosted name imports arguments exported
    let inside := (around.validate options).result
    let outside := ((Registry.run
      { nesting := options.nesting, sideBySide := sideBySide, channels := channels }
      (before ++ .register (some module) :: after)).step
        (.instantiate module.name (Registry.atHand arguments))).2.result
    ((∃ found, inside = .ok found) ↔ ∃ answer, outside = .ok answer) ∧
    (∀ found, inside = .ok found → ∃ exports,
      found = ⟨imports.zip (arguments.map Prod.snd), [(exported, .inst exports)]⟩ ∧
        outside = .ok (.instantiated arguments.length exports)) ∧
    ∀ fault, inside = .error fault → ∃ cause, fault = .invalid ⟨around.path.text, cause⟩ ∧
      outside = .error (.check (.invalid ⟨module.name, cause⟩)) := by
  intro around inside outside
  have sound : ∀ argument ∈ arguments, argument.2.Sound := fun argument among =>
    ItemType.isWellFormed_iff.mp (wellFormed argument among)
  have fits : (module.validate options).result = .ok type :=
    result_validate_of_height accepted (by omega)
  have outcome : module.outcome options.nesting = .ok type :=
    result_validate_of_height accepted (by change _ ≤ options.nesting; omega)
  have within := result_validate_hosted fits room sound distinct length (rfl : _ = around)
  have without := Registry.result_step_instantiate named free outcome after arguments
  rcases Instantiation.uniform_instantiate type arguments with ⟨exports, found⟩ | ⟨cause, failed⟩
  · dsimp only at found
    rw [found] at within without
    refine ⟨⟨fun _ => ⟨_, without⟩, fun _ => ⟨_, within⟩⟩, ?_, ?_⟩
    · intro other same
      cases within.symm.trans same
      exact ⟨exports, rfl, without⟩
    · intro fault failed
      cases within.symm.trans failed
  · dsimp only at failed
    rw [failed] at within without
    refine ⟨⟨?_, ?_⟩, ?_, ?_⟩
    · rintro ⟨other, same⟩
      cases within.symm.trans same
    · rintro ⟨other, same⟩
      cases without.symm.trans same
    · intro other same
      cases within.symm.trans same
    · intro fault same
      cases within.symm.trans same
      exact ⟨cause, rfl, without⟩

def ModuleDef.ferry : ModuleDef where
  name := [7]
  definitions :=
    [.importItem [1] (.complete (.func [] [])), .exportItem [2] ⟨.ofKind .func, 0⟩]

def Registry.harbour : Registry :=
  run { nesting := 1, sideBySide := false, channels := none }
    ([.registerHost [5] []] ++ .register (some .ferry) :: [.validateAll])

/-- With one argument too many the instantiation succeeds, with one name twice it does not. -/
theorem ModuleDef.hosted_agrees_with_registry_ferry :
    (Registry.harbour.step (.instantiate [7]
      (Registry.atHand [([3], .memory ⟨1, none⟩), ([1], .func [] [])]))).2.result =
        .ok (.instantiated 2 [([2], .func [] [])]) ∧
    (Registry.harbour.step (.instantiate [7]
      (Registry.atHand [([1], .func [] []), ([1], .func [] [])]))).2.result =
        .error (.check (.invalid ⟨[7], .duplicateArgument [1]⟩)) := by
  have accepted : (ferry.validate { nesting := 0 }).result =
      .ok ⟨[([1], .func [] [])], [([2], .func [] [])]⟩ := by decide +kernel
  have agrees := fun arguments wellFormed length =>
    hosted_agrees_with_registry ferry { nesting := 0 } _ (by decide) accepted { nesting := 1 }
      (by decide) arguments wellFormed [[8], [9]] (by decide) length [10] [11] false none
      [.registerHost [5] []] [.validateAll] (by decide +kernel)
  constructor
  · have inside : ((ferry.hosted [10] [[8], [9]] [([3], .memory ⟨1, none⟩), ([1], .func [] [])]
        [11]).validate { nesting := 1 }).result =
          .ok ⟨[([8], .memory ⟨1, none⟩), ([9], .func [] [])],
            [([11], .inst [([2], .func [] [])])]⟩ := by decide +kernel
    obtain ⟨_, found, _⟩ :=
      agrees [([3], .memory ⟨1, none⟩), ([1], .func [] [])] (by decide +kernel) rfl
    obtain ⟨exports, same, outside⟩ := found _ inside
    cases same
    exact outside
  · have inside : ((ferry.hosted [10] [[8], [9]] [([1], .func [] []), ([1], .func [] [])]
        [11]).validate { nesting := 1 }).result =
          .error (.invalid ⟨[10], .duplicateArgument [1]⟩) := by decide +kernel
    obtain ⟨_, _, failed⟩ :=
      agrees [([1], .func [] []), ([1], .func [] [])] (by decide +kernel) rfl
    obtain ⟨cause, same, outside⟩ := failed _ inside
    cases same
    exact outside

end Linkage
