import Linkage.Proofs.Preservation

/-!
# Types stated in full

A stated type may be replaced, as a whole or anywhere inside it, by the complete type that it
resolves to. The replacement is searched for defects where an index is looked up and entries are put
together otherwise, so it goes through only because the scope holds sound types.
`Elaborates.resolveType` says so for one stated type; then each definition declares the same item as
before, and the scopes of the two checks are the same all along.
-/

set_option autoImplicit false

namespace Linkage

mutual

/-- A stated type and the same with some of the types in it, any or none, replaced by the complete
types that they resolve to in a scope. -/
inductive TypeExpr.Elaborates (scope : Scope) : TypeExpr → TypeExpr → Prop where
  | kept (type : TypeExpr) : TypeExpr.Elaborates scope type type
  | inFull {type : TypeExpr} {item : ItemType} (resolved : scope.resolveType type = .ok item) :
      TypeExpr.Elaborates scope type (.complete item)
  | inst {exports others : List (Name × TypeExpr)}
      (each : TypeExpr.ElaboratesEach scope exports others) :
      TypeExpr.Elaborates scope (.inst exports) (.inst others)
  | module {imports exports otherImports otherExports : List (Name × TypeExpr)}
      (eachImport : TypeExpr.ElaboratesEach scope imports otherImports)
      (eachExport : TypeExpr.ElaboratesEach scope exports otherExports) :
      TypeExpr.Elaborates scope (.module imports exports) (.module otherImports otherExports)

inductive TypeExpr.ElaboratesEach (scope : Scope) :
    List (Name × TypeExpr) → List (Name × TypeExpr) → Prop where
  | nil : TypeExpr.ElaboratesEach scope [] []
  | cons {name : Name} {type other : TypeExpr} {rest others : List (Name × TypeExpr)}
      (first : TypeExpr.Elaborates scope type other)
      (later : TypeExpr.ElaboratesEach scope rest others) :
      TypeExpr.ElaboratesEach scope ((name, type) :: rest) ((name, other) :: others)

end

mutual

def Definition.stated : Definition → List TypeExpr
  | .typeItem type => [type]
  | .importItem _ type => [type]
  | .nested _ definitions => Definition.statedAll definitions
  | _ => []

def Definition.statedAll : List Definition → List TypeExpr
  | [] => []
  | definition :: rest => definition.stated ++ Definition.statedAll rest

end

namespace Validation

mutual

/-- A definition and the same with types replaced by those that they resolve to when it is checked
in a scope: in what it states itself, or anywhere in a nested module. -/
inductive Elaborates (options : Options) :
    List Enclosing → Scope → Definition → Definition → Prop where
  | kept (outer : List Enclosing) (scope : Scope) (definition : Definition) :
      Elaborates options outer scope definition definition
  | typeItem {outer : List Enclosing} {scope : Scope} {type other : TypeExpr}
      (stated : type.Elaborates scope other) :
      Elaborates options outer scope (.typeItem type) (.typeItem other)
  | importItem {outer : List Enclosing} {scope : Scope} {name : Name} {type other : TypeExpr}
      (stated : type.Elaborates scope other) :
      Elaborates options outer scope (.importItem name type) (.importItem name other)
  | nested {outer : List Enclosing} {scope : Scope} {name : Name}
      {definitions others : List Definition}
      (inside : ElaboratesAll options (scope.seen :: outer) (.opened (scope.nestedPath name))
        definitions others) :
      Elaborates options outer scope (.nested name definitions) (.nested name others)

/-- The same for definitions in order. What a type resolves to is up to the scope that the
definitions before leave. -/
inductive ElaboratesAll (options : Options) :
    List Enclosing → Scope → List Definition → List Definition → Prop where
  | nil (outer : List Enclosing) (scope : Scope) : ElaboratesAll options outer scope [] []
  | cons {outer : List Enclosing} {scope next : Scope} {definition other : Definition}
      {rest others : List Definition} (first : Elaborates options outer scope definition other)
      (accepted : (define options outer scope definition).result = .ok next)
      (later : ElaboratesAll options outer next rest others) :
      ElaboratesAll options outer scope (definition :: rest) (other :: others)

end

end Validation

/-! ## Stated types -/

namespace TypeExpr

variable {scope : Scope}

theorem ElaboratesEach.names_eq {entries others : List (Name × TypeExpr)}
    (each : ElaboratesEach scope entries others) :
    others.map Prod.fst = entries.map Prod.fst := by
  induction entries generalizing others with
  | nil =>
      cases each
      rfl
  | cons entry rest ih =>
      cases each with
      | cons first later => rw [List.map_cons, List.map_cons, ih later]

mutual

theorem Elaborates.spells (sound : scope.Sound) : ∀ {type other : TypeExpr} {item : ItemType},
    type.Elaborates scope other → Spells scope.view type item → Spells scope.view other item
  | _, _, _, .kept _, spelt => spelt
  | _, _, _, .inFull resolved, spelt => by
      have same := resolved.symm.trans (Scope.resolveType_eq_ok_iff.mpr spelt)
      cases same
      -- The type is now searched for defects; it has none because those of the scope have none.
      exact .complete (spelt.sound sound.view)
  | _, _, _, .inst each, .inst spelt distinct =>
      .inst (each.spells sound spelt) (each.names_eq ▸ distinct)
  | _, _, _, .module eachImport eachExport, .module imports newImports exports newExports =>
      .module (eachImport.spells sound imports) (eachImport.names_eq ▸ newImports)
        (eachExport.spells sound exports) (eachExport.names_eq ▸ newExports)

theorem ElaboratesEach.spells (sound : scope.Sound) :
    ∀ {entries others : List (Name × TypeExpr)} {items : InstanceType},
      ElaboratesEach scope entries others → SpellsEach scope.view entries items →
        SpellsEach scope.view others items
  | _, _, _, .nil, .nil => .nil
  | _, _, _, .cons first later, .cons spelt others =>
      .cons (first.spells sound spelt) (later.spells sound others)

end

/-- In a sound scope a replacement resolves to the same type. -/
theorem Elaborates.resolveType {type other : TypeExpr} {item : ItemType} (sound : scope.Sound)
    (elaborates : type.Elaborates scope other) (resolved : scope.resolveType type = .ok item) :
    scope.resolveType other = .ok item :=
  Scope.resolveType_eq_ok_iff.mpr
    (elaborates.spells sound (Scope.resolveType_eq_ok_iff.mp resolved))

end TypeExpr

/-! ## Definitions -/

namespace Validation

variable {options : Options}

theorem Elaborates.record_eq {outer : List Enclosing} {scope : Scope}
    {definition other : Definition}
    (elaborates : Elaborates options outer scope definition other) (item : ItemType) :
    scope.record other item = scope.record definition item := by
  cases elaborates <;> rfl

/-- If the type of its item is found as before, a definition has the same effect. -/
theorem Elaborates.result_define {outer : List Enclosing} {scope next : Scope}
    {definition other : Definition}
    (elaborates : Elaborates options outer scope definition other)
    (found : ∀ item, itemOf options outer scope definition = .ok item →
      itemOf options outer scope other = .ok item)
    (accepted : (define options outer scope definition).result = .ok next) :
    (define options outer scope other).result = .ok next := by
  rw [result_define_eq, bind_eq_ok_iff] at accepted ⊢
  obtain ⟨item, before, recorded⟩ := accepted
  exact ⟨item, found item before, (elaborates.record_eq item).trans recorded⟩

/-- A module whose definitions leave the same scope has the same type. -/
theorem inScope_of_run {outer : List Enclosing} {path : Path} {definitions others : List Definition}
    {type : ModuleType}
    (run : ∀ filled, (defineAll options outer (.opened path) definitions).result = .ok filled →
      (defineAll options outer (.opened path) others).result = .ok filled)
    (accepted : (inScope options outer path fun scope =>
      defineAll options outer scope definitions).result = .ok type) :
    (inScope options outer path fun scope =>
      defineAll options outer scope others).result = .ok type := by
  rw [inScope_eq_ok_iff] at accepted ⊢
  obtain ⟨shallow, filled, before, accumulating, same⟩ := accepted
  exact ⟨shallow, filled, run filled before, accumulating, same⟩

mutual

theorem Elaborates.itemOf : ∀ {outer : List Enclosing} {scope : Scope}
    {definition other : Definition} {item : ItemType},
    Elaborates options outer scope definition other → Enclosing.Offer outer → scope.Sound →
      Validation.itemOf options outer scope definition = .ok item →
        Validation.itemOf options outer scope other = .ok item
  | _, _, _, _, _, .kept _ _ _, _, _, found => found
  | _, _, _, _, _, .typeItem stated, _, sound, found => stated.resolveType sound found
  | _, _, _, _, _, .importItem stated, _, sound, found => stated.resolveType sound found
  | _, _, _, _, _, .nested inside, offered, sound, found => by
      rw [Validation.itemOf, bind_eq_ok_iff] at found ⊢
      obtain ⟨type, accepted, same⟩ := found
      refine ⟨type, inScope_of_run ?_ accepted, same⟩
      intro filled run
      exact inside.result_defineAll (offered.cons sound) (.opened _) run

theorem ElaboratesAll.result_defineAll : ∀ {outer : List Enclosing} {scope filled : Scope}
    {definitions others : List Definition},
    ElaboratesAll options outer scope definitions others → Enclosing.Offer outer → scope.Sound →
      (defineAll options outer scope definitions).result = .ok filled →
        (defineAll options outer scope others).result = .ok filled
  | _, _, _, _, _, .nil _ _, _, _, run => run
  | _, _, _, _, _, .cons first accepted later, offered, sound, run => by
      rw [result_defineAll_cons, accepted] at run
      have again := first.result_define (fun _ => first.itemOf offered sound) accepted
      -- Both checks go on in the same scope, which is sound again.
      have soundNext := preserves options _ offered sound accepted
      rw [result_defineAll_cons, again]
      exact later.result_defineAll offered soundNext run

end

/-! ## All types stated in full -/

theorem exists_elaboratesAll {definitions : List Definition}
    (each : ∀ definition ∈ definitions, ∀ {outer : List Enclosing} {scope next : Scope},
      (define options outer scope definition).result = .ok next →
        ∃ other, Elaborates options outer scope definition other ∧
          ∀ stated ∈ other.stated, ∃ item, stated = .complete item)
    {outer : List Enclosing} {scope filled : Scope}
    (run : (defineAll options outer scope definitions).result = .ok filled) :
    ∃ others, ElaboratesAll options outer scope definitions others ∧
      ∀ stated ∈ Definition.statedAll others, ∃ item, stated = .complete item := by
  induction definitions generalizing scope with
  | nil =>
      refine ⟨[], .nil outer scope, ?_⟩
      intro stated inside
      exact absurd inside List.not_mem_nil
  | cons definition rest ih =>
      rw [result_defineAll_cons, bind_eq_ok_iff] at run
      obtain ⟨next, accepted, later⟩ := run
      obtain ⟨other, elaborates, complete⟩ := each definition List.mem_cons_self accepted
      obtain ⟨others, elaboratesRest, completeRest⟩ :=
        ih (fun inner inside => each inner (List.mem_cons_of_mem _ inside)) later
      refine ⟨other :: others, .cons elaborates accepted elaboratesRest, ?_⟩
      intro stated inside
      rcases List.mem_append.mp inside with here | there
      · exact complete stated here
      · exact completeRest stated there

/-- Wherever a definition is accepted, all types that it states can be replaced. -/
theorem exists_elaborates (options : Options) (definition : Definition) :
    ∀ {outer : List Enclosing} {scope next : Scope},
      (define options outer scope definition).result = .ok next →
        ∃ other, Elaborates options outer scope definition other ∧
          ∀ stated ∈ other.stated, ∃ item, stated = .complete item := by
  induction definition using Definition.nestedInduction with
  | nested name definitions ih =>
      intro outer scope next accepted
      rw [result_define_eq, bind_eq_ok_iff] at accepted
      obtain ⟨item, found, _⟩ := accepted
      rw [itemOf, bind_eq_ok_iff] at found
      obtain ⟨type, accepted, _⟩ := found
      obtain ⟨_, filled, run, _, _⟩ := inScope_eq_ok_iff.mp accepted
      obtain ⟨others, elaborates, complete⟩ := exists_elaboratesAll ih run
      exact ⟨.nested name others, .nested elaborates, complete⟩
  | plain definition notNested =>
      intro outer scope next accepted
      rw [result_define_eq, bind_eq_ok_iff] at accepted
      obtain ⟨item, found, _⟩ := accepted
      cases definition with
      | typeItem type =>
          refine ⟨.typeItem (.complete item), .typeItem (.inFull found), ?_⟩
          intro stated inside
          exact ⟨item, List.mem_singleton.mp inside⟩
      | importItem name type =>
          refine ⟨.importItem name (.complete item), .importItem (.inFull found), ?_⟩
          intro stated inside
          exact ⟨item, List.mem_singleton.mp inside⟩
      | nested name definitions => exact absurd rfl (notNested name definitions)
      | _ =>
          refine ⟨_, .kept outer scope _, ?_⟩
          intro stated inside
          exact absurd inside List.not_mem_nil

end Validation

namespace ModuleDef

structure Elaborates (options : Validation.Options) (outer : List Enclosing) (path : Path)
    (module other : ModuleDef) : Prop where
  name : other.name = module.name
  definitions : Validation.ElaboratesAll options outer (.opened path) module.definitions
    other.definitions

/-- **Stating types in full changes nothing.** If a module is accepted, then it is accepted with the
same type after any types in it have been replaced by the complete types that they resolve to, and
there is a way to replace all of them. Inside other modules the same holds, if the modules and types
that are visible there are well formed. -/
theorem validate_elaborated (options : Validation.Options) (module : ModuleDef)
    (type : ModuleType) :
    ((module.validate options).result = .ok type →
      (∀ other, module.Elaborates options [] module.path other →
        (other.validate options).result = .ok type) ∧
      ∃ other, module.Elaborates options [] module.path other ∧
        ∀ stated ∈ Definition.statedAll other.definitions, ∃ item, stated = .complete item) ∧
    ∀ (outer : List Enclosing) (parent : Scope), Enclosing.Offer (parent.seen :: outer) →
      (module.validateIn options outer parent).result = .ok type →
        ∀ other, module.Elaborates options (parent.seen :: outer) (parent.nestedPath module.name)
          other → (other.validateIn options outer parent).result = .ok type := by
  refine ⟨?_, ?_⟩
  · intro accepted
    refine ⟨?_, ?_⟩
    · rintro other ⟨sameName, elaborates⟩
      have samePath : other.path = module.path := by rw [path, path, sameName]
      rw [validate] at accepted ⊢
      rw [samePath]
      refine Validation.inScope_of_run ?_ accepted
      intro filled run
      exact elaborates.result_defineAll Enclosing.offer_nil (.opened _) run
    · obtain ⟨_, filled, run, _, _⟩ := Validation.inScope_eq_ok_iff.mp accepted
      obtain ⟨others, elaborates, complete⟩ :=
        Validation.exists_elaboratesAll (fun _ _ => Validation.exists_elaborates options _) run
      exact ⟨⟨module.name, others⟩, ⟨rfl, elaborates⟩, complete⟩
  · rintro outer parent offered accepted other ⟨sameName, elaborates⟩
    rw [validateIn, sameName]
    refine Validation.inScope_of_run ?_ accepted
    intro filled run
    exact elaborates.result_defineAll offered (.opened _) run

/-- A module that takes a type from the module around it and uses it in the type of an import, in
both families of entries; the one in the first family is stated as given. -/
def guest (stated : TypeExpr) : ModuleDef where
  name := [2]
  definitions :=
    [.outerAlias ⟨0, 0, .ofKind .type⟩,
      .importItem [3] (.module [([4], stated)] [([4], .indexed (.ofKind .inst) 0)])]

def house (entry stated imported : TypeExpr) : ModuleDef where
  definitions :=
    [.typeItem (.inst [([1], .complete (.func [] []))]), .typeItem (.inst [([6], entry)]),
      (guest stated).asNested, .importItem [5] imported]

theorem validate_elaborated_house :
    let index : Nat → TypeExpr := .indexed (.ofKind .inst)
    let plain : ItemType := .inst [([1], .func [] [])]
    let wrapped : ItemType := .inst [([6], plain)]
    let parent := (Scope.opened (.root [7])).extended (.typeItem (.complete plain)) plain
    ((house (index 0) (index 0) (index 1)).validate {}).result = .ok ⟨[([5], wrapped)], []⟩ ∧
    ((house (.complete plain) (.complete plain) (.complete wrapped)).validate {}).result =
      .ok ⟨[([5], wrapped)], []⟩ ∧
    ((guest (index 0)).validateIn {} [] parent).result =
      .ok ⟨[([3], .module [([4], plain)] [([4], plain)])], []⟩ ∧
    ((guest (.complete plain)).validateIn {} [] parent).result =
      .ok ⟨[([3], .module [([4], plain)] [([4], plain)])], []⟩ := by
  intro index plain wrapped parent
  have accepted : ((house (index 0) (index 0) (index 1)).validate {}).result =
      .ok ⟨[([5], wrapped)], []⟩ := by decide +kernel
  have acceptedGuest : ((guest (index 0)).validateIn {} [] parent).result =
      .ok ⟨[([3], .module [([4], plain)] [([4], plain)])], []⟩ := by decide +kernel
  have sound : parent.Sound :=
    (Scope.Sound.opened _).extended (ItemType.isWellFormed_iff.mp (by decide))
  have settled : (house (index 0) (index 0) (index 1)).Elaborates {} [] (.root "<module>")
      (house (.complete plain) (.complete plain) (.complete wrapped)) :=
    ⟨rfl, .cons (.kept _ _ _) rfl <| .cons (.typeItem (.inst (.cons (.inFull rfl) .nil))) rfl <|
      .cons (.nested (.cons (.kept _ _ _) rfl <|
        .cons (.importItem (.module (.cons (.inFull rfl) .nil) (.cons (.kept _) .nil))) rfl <|
          .nil _ _)) rfl <|
      .cons (.importItem (.inFull rfl)) rfl <| .nil _ _⟩
  have settledGuest : (guest (index 0)).Elaborates {} [parent.seen] (parent.nestedPath [2])
      (guest (.complete plain)) :=
    ⟨rfl, .cons (.kept _ _ _) rfl <|
      .cons (.importItem (.module (.cons (.inFull rfl) .nil) (.cons (.kept _) .nil))) rfl <|
        .nil _ _⟩
  exact ⟨accepted, ((validate_elaborated _ _ _).1 accepted).1 _ settled, acceptedGuest,
    (validate_elaborated _ _ _).2 _ _ (Enclosing.offer_nil.cons sound) acceptedGuest _ settledGuest⟩

end ModuleDef

end Linkage
